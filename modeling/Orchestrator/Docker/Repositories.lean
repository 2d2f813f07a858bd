import Orchestrator.Docker.Naming
import Orchestrator.Models.Fallible
import Orchestrator.Text.Addresses
import Mathlib.Data.List.Infix
import Mathlib.Data.List.TakeWhile

/-!
# Docker — image repositories

A reference `registry/repository`, as the worker checks it (`naming.validate_image_repository`)
and as the pipeline does (`validate_repository` of `orchestrator-build.groovy`).

* `isHostLabels`, `isBracketed`, `isPortText`, `isRepositoryPath`: the patterns of both.
* `validateImageRepository`, `registryFromImageRepository`: the worker's check.
* `Pipeline.validateRepository`: the pipeline's.
* `Registry`, `ImageRepository`: the grammar that each of them decides.
* `repository_agreement`: they accept the same references.
-/

namespace Orchestrator

open Addresses (isHexDigit isIPv6 int? isDigit)

/-! ### Patterns -/

/-- `[A-Za-z0-9](?:[A-Za-z0-9-]{0,61}[A-Za-z0-9])?`. -/
def isHostComponent (label : List Char) : Bool :=
  label.length ≤ 63 && label.head?.any isAlnum && label.getLast?.any isAlnum &&
    label.all fun c => isAlnum c || c == '-'

/-- Host components between dots. -/
def isHostLabels (name : String) : Bool := (name.toList.splitOn '.').all isHostComponent

/-- `\[[0-9A-Fa-f:]+\]`. -/
def isBracketed (name : String) : Bool :=
  match name.toList with
  | '[' :: rest =>
      rest.getLast? == some ']' && rest.dropLast ≠ [] &&
        rest.dropLast.all fun c => isHexDigit c || c == ':'
  | _ => false

/-- `[0-9]{1,5}`. -/
def isPortText (port : String) : Bool :=
  1 ≤ port.toList.length && port.toList.length ≤ 5 && port.toList.all Char.isDigit

/-- A pattern of names, and after a name that it matches a port, or none. -/
def withPort (isName : String → Bool) (host : String) : Bool :=
  isName host ||
    match rsplit ':' host with
    | some (name, port) => isName name && isPortText port
    | none => false

/-- `_REPOSITORY_PATH_PATTERN.fullmatch(path)`: components between slashes. -/
def isRepositoryPath (path : String) : Bool := (split '/' path).all isDockerRepositoryComponent

/-- `1 <= int(port) <= 65535`. -/
def isPortNumber (port : String) : Bool := (int? port.toList).any fun n => 1 ≤ n && n ≤ 65535

/-- `host[1:closing]` and `host[closing + 1:]`, where `closing` is the place of the bracket. -/
def unbracket (host : String) : String × String :=
  let rest := host.toList.drop 1
  (String.ofList (rest.takeWhile (· != ']')), String.ofList ((rest.dropWhile (· != ']')).drop 1))

/-! ### The worker -/

/-- `_REGISTRY_HOST_PATTERN.fullmatch(host)`. -/
def isRegistryHost : String → Bool :=
  withPort fun name => name == "localhost" || isHostLabels name || isBracketed name

/-- `_validate_registry_host`. -/
def validateRegistryHost (host : String) : Except Exc String :=
  if host = "" ∨ isRegistryHost host = false then
    namingError "image repository registry host is invalid"
  else if startsWith host "[" then
    let (address, port) := unbracket host
    if isIPv6 address.toList = false then
      namingError "image repository registry IPv6 address is invalid"
    else if port ≠ "" ∧ (startsWith port ":" = false ∨ isDigit (port.toList.drop 1) = false ∨
        isPortNumber (String.ofList (port.toList.drop 1)) = false) then
      namingError "image repository registry port is invalid"
    else .ok host
  else match rsplit ':' host with
    | some (_, port) =>
        if isPortNumber port then .ok host
        else namingError "image repository registry port is invalid"
    | none =>
        if lowerText host ≠ "localhost" ∧ '.' ∉ host.toList then
          namingError "image repository registry host must be qualified or include a port"
        else .ok host

def notAReference : Except Exc String :=
  namingError "IMAGE_REPOSITORY must be a registry/repository reference"

def validateImageRepository (value : String) : Except Exc String :=
  if value = "" ∨ value ≠ strip value then notAReference
  else if ∃ marker ∈ ["://", "?", "#", "@"], marker.toList <:+: value.toList then notAReference
  else if startsWith value "/" ∨ "//".toList <:+: value.toList then notAReference
  else match split '/' value with
    | host :: part :: parts =>
        if (host :: part :: parts).any (· == "") then notAReference
        else do
          let _ ← validateRegistryHost host
          let repository := join '/' (part :: parts)
          if 255 < repository.toList.length ∨ isRepositoryPath repository = false then
            namingError "IMAGE_REPOSITORY repository path is invalid"
          else .ok value
    | _ => notAReference

/-- `value.split("/", 1)[0]`. -/
def registryOf (value : String) : String :=
  match splitOnce '/' value with
  | some (registry, _) => registry
  | none => value

def registryFromImageRepository (value : String) : Except Exc String := do
  let validated ← validateImageRepository value
  .ok (registryOf validated)

/-! ### The pipeline -/

namespace Pipeline

/-- `re.fullmatch(registry_pattern, registry)`. -/
def isRegistry : String → Bool := withPort fun name => isHostLabels name || isBracketed name

/-- What stands where a registry has its port, with the colon or without it. -/
def portOf (registry : String) : String :=
  if startsWith registry "[" then (unbracket registry).2
  else match rsplit ':' registry with
    | some (_, port) => port
    | none => ""

/-- `port.removeprefix(":")`. -/
def portDigits (port : String) : String :=
  if startsWith port ":" then String.ofList (port.toList.drop 1) else port

/-- `validate_repository`, with `HARBOR_REGISTRY` of the environment; the error is the text of
the `SystemExit`. -/
def validateRepository (harborRegistry value : String) : Except String String :=
  match splitOnce '/' value with
  | none => .error "IMAGE_REPOSITORY must start with a valid registry host (and optional port)"
  | some (registry, path) =>
      let port := portOf registry
      let digits := portDigits port
      if isRegistry registry = false then
        .error "IMAGE_REPOSITORY must start with a valid registry host (and optional port)"
      else if startsWith registry "[" ∧ isIPv6 (unbracket registry).1.toList = false then
        .error "IMAGE_REPOSITORY registry IPv6 address is invalid"
      else if port ≠ "" ∧ (5 < digits.toList.length ∨ isPortNumber digits = false) then
        .error "IMAGE_REPOSITORY registry port is invalid"
      else if lowerText registry ≠ "localhost" ∧ '.' ∉ registry.toList ∧ ':' ∉ registry.toList then
        .error "IMAGE_REPOSITORY registry must be localhost, a qualified host, or host:port"
      else if isRepositoryPath path = false ∨ 255 < path.toList.length then
        .error ("IMAGE_REPOSITORY repository path must be lowercase Docker components and at " ++
          "most 255 characters")
      else if registry ≠ harborRegistry then
        .error "HARBOR_REGISTRY must match the IMAGE_REPOSITORY registry"
      else .ok value

end Pipeline

/-! ### Host names -/

theorem isHostComponent_char {label : List Char} (h : isHostComponent label = true) :
    ∀ c ∈ label, isAlnum c = true ∨ c = '-' := by
  intro c hc
  simp only [isHostComponent, Bool.and_eq_true, List.all_eq_true, Bool.or_eq_true,
    beq_iff_eq] at h
  exact h.2 c hc

/-- A character between separators stands in a part, or is a separator. -/
theorem mem_splitOn {c x : Char} : ∀ {s : List Char}, x ∈ s →
    x = c ∨ ∃ part ∈ s.splitOn c, x ∈ part := by
  intro s
  induction s with
  | nil => intro h; cases h
  | cons y s ih =>
      intro h
      rw [List.splitOn_cons_eq_if_modifyHead]
      by_cases hy : (y == c) = true
      · rw [if_pos hy]
        rcases List.mem_cons.mp h with rfl | h
        · exact .inl (by simpa using hy)
        · rcases ih h with e | ⟨part, hp, hx⟩
          · exact .inl e
          · exact .inr ⟨part, List.mem_cons_of_mem _ hp, hx⟩
      · rw [if_neg hy]
        cases hs : s.splitOn c with
        | nil => exact absurd hs (List.splitOn_ne_nil c s)
        | cons part parts =>
            rw [List.modifyHead_cons]
            rcases List.mem_cons.mp h with rfl | h
            · exact .inr ⟨_, List.mem_cons_self, List.mem_cons_self⟩
            · rcases ih h with e | ⟨part', hp, hx⟩
              · exact .inl e
              · rw [hs] at hp
                rcases List.mem_cons.mp hp with rfl | hp
                · exact .inr ⟨_, List.mem_cons_self, List.mem_cons_of_mem _ hx⟩
                · exact .inr ⟨part', List.mem_cons_of_mem _ hp, hx⟩

theorem isHostLabels_char {name : String} (h : isHostLabels name = true) :
    ∀ c ∈ name.toList, isAlnum c = true ∨ c = '-' ∨ c = '.' := by
  intro c hc
  rw [isHostLabels, List.all_eq_true] at h
  rcases mem_splitOn hc with e | ⟨label, hl, hx⟩
  · exact .inr (.inr e)
  · exact (isHostComponent_char (h label hl) c hx).imp_right .inl

/-- What stands in the brackets. -/
theorem isBracketed_iff {name : String} : isBracketed name = true ↔
    ∃ inner, name.toList = '[' :: inner ++ [']'] ∧ inner ≠ [] ∧
      ∀ c ∈ inner, isHexDigit c = true ∨ c = ':' := by
  unfold isBracketed
  split
  · next rest hr =>
      constructor
      · intro h
        simp only [Bool.and_eq_true, beq_iff_eq, decide_eq_true_eq, List.all_eq_true,
          Bool.or_eq_true] at h
        refine ⟨rest.dropLast, ?_, h.1.2, h.2⟩
        rw [hr, List.cons_append, List.dropLast_append_getLast? ']' (by simp [h.1.1])]
      · rintro ⟨inner, hi, hne, hall⟩
        rw [hr, List.cons_append, List.cons.injEq] at hi
        obtain ⟨-, rfl⟩ := hi
        simpa [hne] using hall
  · next hn =>
      constructor
      · intro h; cases h
      · rintro ⟨inner, hi, -, -⟩
        exact absurd hi (hn _)

theorem not_mem_labels {name : String} (h : isHostLabels name = true) {c : Char}
    (hc : isAlnum c = false ∧ c ≠ '-' ∧ c ≠ '.') : c ∉ name.toList := by
  intro hm
  rcases isHostLabels_char h c hm with e | e | e
  · rw [hc.1] at e; cases e
  · exact hc.2.1 e
  · exact hc.2.2 e

theorem isHostLabels_ne_nil {name : String} (h : isHostLabels name = true) : name.toList ≠ [] := by
  intro e
  rw [isHostLabels, e] at h
  revert h
  decide

theorem rsplit_of_cut {c : Char} {s a b : String} (h : s.toList = a.toList ++ c :: b.toList)
    (hb : c ∉ b.toList) : rsplit c s = some (a, b) := by
  have hr : s.toList.reverse = b.toList.reverse ++ c :: a.toList.reverse := by
    rw [h]; simp
  have hall : ∀ x ∈ b.toList.reverse, (x != c) = true := by
    intro x hx
    rw [bne_iff_ne]
    exact fun e => hb (e ▸ List.mem_reverse.mp hx)
  rw [rsplit, hr, List.dropWhile_append_of_pos hall, List.takeWhile_append_of_pos hall]
  simp

theorem rsplit_eq_none {c : Char} {s : String} (h : c ∉ s.toList) : rsplit c s = none := by
  cases e : rsplit c s with
  | none => rfl
  | some p =>
      obtain ⟨hs, -⟩ := rsplit_eq_some (a := p.1) (b := p.2) e
      exact absurd (hs ▸ List.mem_append_right _ List.mem_cons_self) h

theorem isPortText_colon {port : String} (h : isPortText port = true) : ':' ∉ port.toList := by
  intro hm
  simp only [isPortText, Bool.and_eq_true, List.all_eq_true] at h
  exact absurd (h.2 _ hm) (by decide)

/-- Where a host has its port, and how the two validators look for it. -/
theorem isRegistry_cases {r : String} (h : Pipeline.isRegistry r = true) :
    (startsWith r "[" = false ∧ ':' ∉ r.toList) ∨
    (startsWith r "[" = false ∧ ':' ∈ r.toList ∧
      ∃ name port, rsplit ':' r = some (name, port) ∧ isPortText port = true) ∨
    (startsWith r "[" = true ∧ '%' ∉ (unbracket r).1.toList ∧
      ((unbracket r).2 = "" ∨ ∃ port, (unbracket r).2 = ":" ++ port ∧ isPortText port = true)) := by
  -- A name of labels has no bracket.
  have hnot : ∀ name rest, r.toList = name ++ rest → name ≠ [] → '[' ∉ name →
      startsWith r "[" = false := by
    intro name rest hr hne hn
    rw [startsWith, hr]
    cases name with
    | nil => exact absurd rfl hne
    | cons c name =>
        rw [Bool.eq_false_iff]
        intro hs
        obtain ⟨rest', hs⟩ := List.isPrefixOf_iff_prefix.mp hs
        rw [show "[".toList = ['['] by decide] at hs
        rw [List.cons_append, List.cons_append, List.cons.injEq] at hs
        exact hn (hs.1 ▸ List.mem_cons_self)
  -- An address in brackets is what `unbracket` takes out.
  have hbracket : ∀ inner rest, r.toList = ('[' :: inner ++ [']']) ++ rest →
      (∀ c ∈ inner, isHexDigit c = true ∨ c = ':') →
      startsWith r "[" = true ∧ '%' ∉ (unbracket r).1.toList ∧
        (unbracket r).2 = String.ofList rest := by
    intro inner rest hr hi
    have hi' : ∀ x ∈ inner, (x != ']') = true := by
      intro x hx
      rw [bne_iff_ne]
      rintro rfl
      exact absurd (hi _ hx) (by decide)
    have hu : unbracket r = (String.ofList inner, String.ofList rest) := by
      rw [unbracket, hr]
      simp only [List.cons_append, List.append_assoc, List.drop_succ_cons, List.drop_zero]
      rw [List.takeWhile_append_of_pos hi', List.dropWhile_append_of_pos hi']
      simp
    refine ⟨?_, ?_, by rw [hu]⟩
    · rw [startsWith, hr]; rfl
    · rw [hu, String.toList_ofList]
      intro hm
      exact absurd (hi _ hm) (by decide)
  rw [Pipeline.isRegistry, withPort, Bool.or_eq_true] at h
  rcases h with h | h
  · rcases Bool.or_eq_true _ _ ▸ h with h | h
    · exact .inl ⟨hnot _ [] (by simp) (isHostLabels_ne_nil h) (not_mem_labels h (by decide)),
        not_mem_labels h (by decide)⟩
    · obtain ⟨inner, hr, -, hi⟩ := isBracketed_iff.mp h
      obtain ⟨h₁, h₂, h₃⟩ := hbracket inner [] (by rw [hr]; simp) hi
      exact .inr (.inr ⟨h₁, h₂, .inl h₃⟩)
  · split at h
    · next name port hs =>
        rw [Bool.and_eq_true, Bool.or_eq_true] at h
        obtain ⟨hr, -⟩ := rsplit_eq_some hs
        rcases h with ⟨h | h, hp⟩
        · exact .inr (.inl ⟨hnot _ _ hr (isHostLabels_ne_nil h) (not_mem_labels h (by decide)),
            hr ▸ List.mem_append_right _ List.mem_cons_self, name, port, hs, hp⟩)
        · obtain ⟨inner, hn, -, hi⟩ := isBracketed_iff.mp h
          obtain ⟨h₁, h₂, h₃⟩ := hbracket inner (':' :: port.toList) (by rw [hr, hn]) hi
          refine .inr (.inr ⟨h₁, h₂, .inr ⟨port, ?_, hp⟩⟩)
          rw [h₃]
          exact String.toList_inj.mp (by simp)
    · cases h

theorem isIPv6_colon {address : List Char} (h : isIPv6 address = true) (hp : '%' ∉ address) :
    ':' ∈ address := by
  by_contra hc
  rw [isIPv6, List.splitOn_eq_singleton hp, Bool.and_eq_true] at h
  have hparts : Addresses.hextets address = none := by
    rw [Addresses.hextets, List.splitOn_eq_singleton hc]
    exact if_pos (by simp)
  have hplain : Addresses.isPlainIPv6 address = true := h.2
  rw [Addresses.isPlainIPv6, hparts] at hplain
  cases hplain

/-- The port of a host fits both checks, or neither. -/
theorem portDigits_of_isPortText {port : String} (h : isPortText port = true) :
    port ≠ "" ∧ Pipeline.portDigits port = port ∧ Pipeline.portDigits (":" ++ port) = port ∧
      port.toList.length ≤ 5 ∧ isDigit port.toList = true := by
  have hcolon := isPortText_colon h
  simp only [isPortText, Bool.and_eq_true, decide_eq_true_eq, List.all_eq_true] at h
  have hne : port.toList ≠ [] := by
    intro e
    rw [e] at h
    exact absurd h.1.1 (by decide)
  refine ⟨fun e => hne (e ▸ rfl), ?_, ?_, h.1.2, ?_⟩
  · rw [Pipeline.portDigits, if_neg]
    rw [startsWith_iff]
    rintro ⟨rest, hr⟩
    rw [show ":".toList = [':'] by decide] at hr
    exact hcolon (hr ▸ List.mem_cons_self)
  · rw [Pipeline.portDigits, if_pos (startsWith_iff.mpr ⟨port.toList, by simp⟩)]
    exact String.toList_inj.mp (by simp)
  · rw [isDigit, Bool.and_eq_true, List.all_eq_true]
    refine ⟨by simpa using hne, fun c hc => ?_⟩
    have hd := h.2 c hc
    have table : ∀ n, n < 128 → (Char.ofNat n).isDigit = true →
        Addresses.isDigitChar (Char.ofNat n) = true := by decide
    have hlt : c.toNat < 128 := by
      simp only [Char.isDigit, Bool.and_eq_true, decide_eq_true_eq] at hd
      have := hd.2
      simp only [UInt32.le_iff_toNat_le] at this
      exact Nat.lt_of_le_of_lt this (by decide)
    have := table c.toNat hlt
    rw [Char.ofNat_toNat] at this
    exact this hd

/-! ### The grammar of both -/

/-- A registry host: a name of one of the forms, whose address and port are right, and which
Docker does not take for a namespace. -/
structure Registry (host : String) : Prop where
  form : Pipeline.isRegistry host = true
  address : startsWith host "[" = true → isIPv6 (unbracket host).1.toList = true
  port : Pipeline.portOf host ≠ "" →
    isPortNumber (Pipeline.portDigits (Pipeline.portOf host)) = true
  qualified : lowerText host = "localhost" ∨ '.' ∈ host.toList ∨ ':' ∈ host.toList

/-- A registry host, a slash, and components between slashes. -/
structure ImageRepository (value registry path : String) : Prop where
  cut : splitOnce '/' value = some (registry, path)
  host : Registry registry
  components : isRepositoryPath path = true
  bounded : path.toList.length ≤ 255

/-- `localhost` is a host component like any other. -/
theorem isRegistryHost_eq : isRegistryHost = Pipeline.isRegistry := by
  unfold isRegistryHost Pipeline.isRegistry
  congr 1
  funext name
  by_cases h : name = "localhost"
  · rw [h]; decide
  · rw [beq_eq_false_iff_ne.mpr h, Bool.false_or]

theorem validateRegistryHost_iff {host : String} :
    validateRegistryHost host = .ok host ↔ Registry host := by
  by_cases hform : Pipeline.isRegistry host = true
  swap
  · constructor
    · intro h
      rw [validateRegistryHost, if_pos (.inr (by rw [isRegistryHost_eq]; simpa using hform))] at h
      cases h
    · exact fun h => absurd h.form hform
  have hne : host ≠ "" := by
    rintro rfl
    revert hform
    decide
  rw [validateRegistryHost, if_neg (by rw [isRegistryHost_eq]; simp [hform, hne])]
  -- Without a port, with a port, and with an address in brackets.
  rcases isRegistry_cases hform with ⟨hs, hc⟩ | ⟨hs, hc, name, port, hr, hp⟩ | ⟨hs, hp, hrest⟩
  · have hport : Pipeline.portOf host = "" := by
      rw [Pipeline.portOf, if_neg (by rw [hs]; decide), rsplit_eq_none hc]
    rw [if_neg (by rw [hs]; decide), rsplit_eq_none hc]
    constructor
    · intro h
      refine ⟨hform, fun e => absurd (hs.symm.trans e) (by decide), fun e => absurd hport e, ?_⟩
      by_contra hq
      have hq' := not_or.mp hq
      dsimp only at h
      rw [if_pos ⟨hq'.1, fun e => hq'.2 (.inl e)⟩] at h
      cases h
    · intro h
      refine if_neg fun e => ?_
      rcases h.qualified with hq | hq | hq
      · exact e.1 hq
      · exact e.2 hq
      · exact hc hq
  · obtain ⟨hne', hd, -, -, -⟩ := portDigits_of_isPortText hp
    have hport : Pipeline.portOf host = port := by
      rw [Pipeline.portOf, if_neg (by rw [hs]; decide), hr]
    rw [if_neg (by rw [hs]; decide), hr]
    constructor
    · intro h
      refine ⟨hform, fun e => absurd (hs.symm.trans e) (by decide), fun _ => ?_, .inr (.inr hc)⟩
      rw [hport, hd]
      by_contra hn
      dsimp only at h
      rw [if_neg hn] at h
      cases h
    · intro h
      have := h.port (by rw [hport]; exact hne')
      rw [hport, hd] at this
      exact if_pos this
  · have hport : Pipeline.portOf host = (unbracket host).2 := by
      rw [Pipeline.portOf, if_pos hs]
    rw [if_pos hs]
    dsimp only
    by_cases ha : isIPv6 (unbracket host).1.toList = true
    swap
    · rw [if_pos (by simpa using ha)]
      constructor
      · intro h; cases h
      · exact fun h => absurd (h.address hs) ha
    rw [if_neg (by simpa using ha)]
    have hcolon : ':' ∈ host.toList := by
      have := isIPv6_colon ha hp
      rw [unbracket, String.toList_ofList] at this
      exact List.mem_of_mem_drop ((List.takeWhile_sublist _).subset this)
    rcases hrest with e | ⟨port, e, htext⟩
    · rw [if_neg (fun h => h.1 e)]
      exact ⟨fun _ => ⟨hform, fun _ => ha, fun h => absurd (hport.trans e) h,
        .inr (.inr hcolon)⟩, fun _ => rfl⟩
    · obtain ⟨-, -, hd, -, hdigit⟩ := portDigits_of_isPortText htext
      have hdrop : (":" ++ port).toList.drop 1 = port.toList := by simp
      rw [e, hdrop, String.ofList_toList]
      have hsw : startsWith (":" ++ port) ":" = true :=
        startsWith_iff.mpr ⟨port.toList, by simp⟩
      have hnonempty : ":" ++ port ≠ "" := by
        intro e
        have := congrArg String.toList e
        simp at this
      constructor
      · intro h
        refine ⟨hform, fun _ => ha, fun _ => ?_, .inr (.inr hcolon)⟩
        rw [hport, e, hd]
        by_contra hn
        rw [if_pos ⟨hnonempty, .inr (.inr (by simpa using hn))⟩] at h
        cases h
      · intro h
        have hnum := h.port (by rw [hport, e]; exact hnonempty)
        rw [hport, e, hd] at hnum
        refine if_neg ?_
        rintro ⟨-, h | h | h⟩
        · rw [hsw] at h; cases h
        · rw [hdigit] at h; cases h
        · rw [hnum] at h; cases h

/-! ### The worker decides it -/

theorem splitOnce_eq_some {c : Char} {s a b : String} (h : splitOnce c s = some (a, b)) :
    s.toList = a.toList ++ c :: b.toList ∧ c ∉ a.toList := by
  unfold splitOnce at h
  split at h
  · cases h
  · next x after hx =>
      cases h
      have hc : x = c := by
        have := List.head?_dropWhile_not (p := (· != c)) (l := s.toList)
        rw [hx] at this
        simpa using this
      have hs := List.takeWhile_append_dropWhile (p := (· != c)) (l := s.toList)
      rw [hx, hc] at hs
      refine ⟨by rw [String.toList_ofList, String.toList_ofList]; exact hs.symm, fun hm => ?_⟩
      rw [String.toList_ofList] at hm
      have := List.all_takeWhile (p := (· != c)) (l := s.toList)
      simpa using List.all_eq_true.mp this c hm

theorem splitOnce_of_cut {c : Char} {s a b : String} (h : s.toList = a.toList ++ c :: b.toList)
    (ha : c ∉ a.toList) : splitOnce c s = some (a, b) := by
  have hall : ∀ x ∈ a.toList, (x != c) = true := by
    intro x hx
    rw [bne_iff_ne]
    exact fun e => ha (e ▸ hx)
  rw [splitOnce, h, List.dropWhile_append_of_pos hall, List.takeWhile_append_of_pos hall]
  simp

theorem splitOnce_eq_none {c : Char} {s : String} (h : splitOnce c s = none) : c ∉ s.toList := by
  unfold splitOnce at h
  split at h
  · next hx =>
      intro hm
      have := List.dropWhile_eq_nil_iff.mp hx c hm
      simp at this
  · cases h

theorem split_of_splitOnce {c : Char} {s a b : String} (h : splitOnce c s = some (a, b)) :
    split c s = a :: split c b := by
  obtain ⟨hs, ha⟩ := splitOnce_eq_some h
  rw [split, hs, List.splitOn_append_cons_self_of_not_mem ha, split]
  simp

theorem join_split (c : Char) (s : String) : join c (split c s) = s := by
  rw [join, split, List.map_map]
  have : String.toList ∘ String.ofList = id := by
    funext l
    exact String.toList_ofList
  rw [this, List.map_id, List.intercalate_splitOn, String.ofList_toList]

/-- The characters of a component. -/
def isComponentChar (c : Char) : Bool := isLowerAlnum c || c == '.' || c == '_' || c == '-'

theorem ComponentState.next_char {s s' : ComponentState} {c : Char} (h : s.next c = some s') :
    isComponentChar c = true := by
  unfold ComponentState.next at h
  dsimp only at h
  split at h
  · next hc => rw [isComponentChar, hc]; rfl
  · split at h
    all_goals first | rfl | cases h

theorem foldlM_next_char {cs : List Char} : ∀ {s s' : ComponentState},
    cs.foldlM ComponentState.next s = some s' → ∀ c ∈ cs, isComponentChar c = true := by
  induction cs with
  | nil => intro s s' _ c hc; cases hc
  | cons x cs ih =>
      intro s s' h c hc
      rw [List.foldlM_cons] at h
      obtain ⟨s'', hx, hs⟩ := Option.bind_eq_some_iff.mp h
      rcases List.mem_cons.mp hc with rfl | hc
      · exact ComponentState.next_char hx
      · exact ih hs c hc

theorem isDockerRepositoryComponent_char {value : String}
    (h : isDockerRepositoryComponent value = true) : ∀ c ∈ value.toList, isComponentChar c = true :=
  foldlM_next_char (by simpa [isDockerRepositoryComponent] using h)

theorem isDockerRepositoryComponent_ne_empty {value : String}
    (h : isDockerRepositoryComponent value = true) : value ≠ "" := by
  rintro rfl
  revert h
  decide

theorem isRepositoryPath_char {path : String} (h : isRepositoryPath path = true) :
    ∀ c ∈ path.toList, isComponentChar c = true ∨ c = '/' := by
  intro c hc
  rw [isRepositoryPath, List.all_eq_true] at h
  rcases mem_splitOn hc with e | ⟨part, hp, hx⟩
  · exact .inr e
  · have := h (String.ofList part) (List.mem_map_of_mem hp)
    exact .inl (isDockerRepositoryComponent_char this c (by simpa using hx))

/-- The characters of a registry host. -/
def isRegistryChar (c : Char) : Bool :=
  isAlnum c || c == '-' || c == '.' || c == ':' || c == '[' || c == ']'

theorem isHexDigit_alnum {c : Char} (h : isHexDigit c = true) : isAlnum c = true := by
  simp only [isHexDigit, Char.isDigit, Bool.or_eq_true, Bool.and_eq_true, decide_eq_true_eq] at h
  simp only [isAlnum, isLowerAlnum, Bool.or_eq_true, Bool.and_eq_true, decide_eq_true_eq]
  rcases h with (h | h) | h
  · exact .inl (.inr h)
  · exact .inl (.inl ⟨h.1, Char.le_trans h.2 (by decide)⟩)
  · exact .inr ⟨h.1, Char.le_trans h.2 (by decide)⟩

/-- A name without a port. -/
theorem isName_char {name : String} (h : (isHostLabels name || isBracketed name) = true) :
    ∀ c ∈ name.toList, isRegistryChar c = true := by
  intro c hc
  simp only [isRegistryChar, Bool.or_eq_true, beq_iff_eq]
  rcases Bool.or_eq_true _ _ ▸ h with h | h
  · rcases isHostLabels_char h c hc with e | e | e
    all_goals tauto
  · obtain ⟨inner, hn, -, hi⟩ := isBracketed_iff.mp h
    rw [hn, List.mem_append, List.mem_cons, List.mem_singleton] at hc
    rcases hc with (e | hc) | e
    · tauto
    · rcases hi c hc with e | e
      · have := isHexDigit_alnum e
        tauto
      · tauto
    · tauto

theorem isRegistry_char {host : String} (h : Pipeline.isRegistry host = true) :
    ∀ c ∈ host.toList, isRegistryChar c = true := by
  rw [Pipeline.isRegistry, withPort, Bool.or_eq_true] at h
  rcases h with h | h
  · exact isName_char h
  · split at h
    · next name port hs =>
        rw [Bool.and_eq_true] at h
        obtain ⟨hr, -⟩ := rsplit_eq_some hs
        intro c hc
        rw [hr, List.mem_append, List.mem_cons] at hc
        rcases hc with hc | rfl | hc
        · exact isName_char h.1 c hc
        · decide
        · have hp := h.2
          simp only [isPortText, Bool.and_eq_true, List.all_eq_true] at hp
          have hd : isHexDigit c = true := by
            rw [isHexDigit, hp.2 c hc]; rfl
          simp [isRegistryChar, isHexDigit_alnum hd]
    · cases h

/-- The characters of a reference: no blank, and none of the markers but the colon. -/
theorem plain_of_char {c : Char} (h : isRegistryChar c = true ∨ isComponentChar c = true ∨ c = '/') :
    isSpace c = false ∧ c ≠ '?' ∧ c ≠ '#' ∧ c ≠ '@' := by
  have hlt : c.toNat < 128 := by
    have hle : ∀ d : Char, c ≤ d → d.toNat < 128 → c.toNat < 128 := fun d h h' =>
      Nat.lt_of_le_of_lt (UInt32.le_iff_toNat_le.mp h) h'
    simp only [isRegistryChar, isComponentChar, isAlnum, isLowerAlnum, Bool.or_eq_true,
      Bool.and_eq_true, decide_eq_true_eq, beq_iff_eq] at h
    rcases h with
      (((((((⟨-, h⟩ | ⟨-, h⟩) | ⟨-, h⟩) | rfl) | rfl) | rfl) | rfl) | rfl) |
      (((((⟨-, h⟩ | ⟨-, h⟩) | rfl) | rfl) | rfl) | rfl)
    all_goals first | decide | exact hle _ h (by decide)
  have table : ∀ n, n < 128 →
      (isRegistryChar (Char.ofNat n) || isComponentChar (Char.ofNat n) ||
        Char.ofNat n == '/') = true →
      isSpace (Char.ofNat n) = false ∧ Char.ofNat n ≠ '?' ∧ Char.ofNat n ≠ '#' ∧
        Char.ofNat n ≠ '@' := by decide
  have := table c.toNat hlt
  rw [Char.ofNat_toNat] at this
  refine this ?_
  simp only [Bool.or_eq_true, beq_iff_eq]
  tauto

theorem strip_of_plain {s : String} (h : ∀ c ∈ s.toList, isSpace c = false) : strip s = s := by
  have hdrop : ∀ l : List Char, (∀ c ∈ l, isSpace c = false) → l.dropWhile isSpace = l := by
    intro l hl
    cases l with
    | nil => rfl
    | cons c l => rw [List.dropWhile_cons, if_neg]; simpa using hl c List.mem_cons_self
  rw [strip, hdrop _ h, hdrop _ (fun c hc => h c (List.mem_reverse.mp hc)), List.reverse_reverse,
    String.ofList_toList]

theorem validateRegistryHost_ok {host host' : String} (h : validateRegistryHost host = .ok host') :
    host' = host := by
  rw [validateRegistryHost] at h
  repeat' split at h
  all_goals first | (cases h; done) | (cases h; rfl)

/-- Two slashes leave an empty part. -/
theorem empty_of_slashes {s : List Char} (h : ['/', '/'] <:+: s) : [] ∈ s.splitOn '/' := by
  obtain ⟨a, b, rfl⟩ := h
  have : a ++ ['/', '/'] ++ b = a ++ '/' :: '/' :: b := by simp
  rw [this, List.splitOn_append_cons_self, List.splitOn_cons_eq_if_modifyHead]
  simp

theorem validateImageRepository_iff {value : String} :
    validateImageRepository value = .ok value ↔
      ∃ registry path, ImageRepository value registry path := by
  constructor
  · intro h
    rw [validateImageRepository] at h
    by_cases h₁ : value = "" ∨ value ≠ strip value
    · rw [if_pos h₁] at h; cases h
    by_cases h₂ : ∃ marker ∈ ["://", "?", "#", "@"], marker.toList <:+: value.toList
    · rw [if_neg h₁, if_pos h₂] at h; cases h
    by_cases h₃ : startsWith value "/" = true ∨ "//".toList <:+: value.toList
    · rw [if_neg h₁, if_neg h₂, if_pos h₃] at h; cases h
    rw [if_neg h₁, if_neg h₂, if_neg h₃] at h
    split at h
    · next host part parts hs =>
        split at h
        · cases h
        obtain ⟨host', hh, h⟩ := bind_ok h
        dsimp only at h
        split at h
        · cases h
        · next hpath =>
            have hpath := not_or.mp hpath
            have hcut : splitOnce '/' value = some (host, join '/' (part :: parts)) := by
              cases e : splitOnce '/' value with
              | none =>
                  rw [split, List.splitOn_eq_singleton (splitOnce_eq_none e)] at hs
                  cases hs
              | some p =>
                  have := hs.symm.trans (split_of_splitOnce (a := p.1) (b := p.2) e)
                  obtain ⟨rfl, hp⟩ := List.cons.inj this
                  rw [hp, join_split]
            refine ⟨host, join '/' (part :: parts), hcut, validateRegistryHost_iff.mp ?_,
              by simpa using hpath.2, by omega⟩
            rw [hh, validateRegistryHost_ok hh]
    · cases h
  · rintro ⟨registry, path, h⟩
    obtain ⟨hv, hcut⟩ := splitOnce_eq_some h.cut
    have hchars : ∀ c ∈ value.toList, isSpace c = false ∧ c ≠ '?' ∧ c ≠ '#' ∧ c ≠ '@' := by
      intro c hc
      rw [hv, List.mem_append, List.mem_cons] at hc
      rcases hc with hc | rfl | hc
      · exact plain_of_char (.inl (isRegistry_char h.host.form c hc))
      · exact plain_of_char (.inr (.inr rfl))
      · exact plain_of_char (.inr (isRepositoryPath_char h.components c hc))
    have hsplit := split_of_splitOnce h.cut
    have hne : registry ≠ "" := by
      intro e
      have := h.host.form
      rw [e] at this
      revert this
      decide
    -- No part is empty, and so no two slashes meet.
    have hparts : ∀ part ∈ split '/' value, part ≠ "" := by
      intro part hp
      rw [hsplit] at hp
      rcases List.mem_cons.mp hp with rfl | hp
      · exact hne
      · exact isDockerRepositoryComponent_ne_empty (List.all_eq_true.mp h.components part hp)
    have hslashes : ¬ ['/', '/'] <:+: value.toList := fun e =>
      hparts "" (List.mem_map_of_mem (f := String.ofList) (empty_of_slashes e)) rfl
    have hmarker : ∀ c : Char, (c = '?' ∨ c = '#' ∨ c = '@') → ¬ [c] <:+: value.toList := by
      intro c hc e
      have := hchars c (e.subset List.mem_cons_self)
      tauto
    rw [validateImageRepository, if_neg, if_neg, if_neg]
    · cases hpath : split '/' path with
      | nil => rw [split, List.map_eq_nil_iff] at hpath; exact absurd hpath (List.splitOn_ne_nil _ _)
      | cons part parts =>
          rw [hsplit, hpath]
          dsimp only
          rw [if_neg, validateRegistryHost_iff.mpr h.host]
          · have hjoin : join '/' (part :: parts) = path := by rw [← hpath, join_split]
            simp only [bind, Except.bind, hjoin]
            refine if_neg ?_
            rintro (e | e)
            · exact absurd e (Nat.not_lt.mpr h.bounded)
            · rw [h.components] at e; cases e
          · intro e
            obtain ⟨x, hx, he⟩ := List.any_eq_true.mp e
            rw [← hpath, ← hsplit] at hx
            exact hparts x hx (by simpa using he)
    · rintro (e | e)
      · obtain ⟨rest, hr⟩ := startsWith_iff.mp e
        cases hreg : registry.toList with
        | nil => exact hne (String.toList_eq_nil_iff.mp hreg)
        | cons c cs =>
            rw [hv, hreg, show "/".toList = ['/'] by decide, List.cons_append, List.cons_append,
              List.cons.injEq] at hr
            exact hcut (hreg ▸ hr.1 ▸ List.mem_cons_self)
      · exact hslashes e
    · rintro ⟨marker, hm, e⟩
      simp only [List.mem_cons, List.not_mem_nil, or_false] at hm
      rcases hm with rfl | rfl | rfl | rfl
      · exact hslashes (List.IsInfix.trans ⟨[':'], [], by decide⟩ e)
      · exact hmarker '?' (by simp) e
      · exact hmarker '#' (by simp) e
      · exact hmarker '@' (by simp) e
    · rintro (rfl | e)
      · simp at hv
      · exact e (strip_of_plain fun c hc => (hchars c hc).1).symm

theorem validateImageRepository_ok {value value' : String}
    (h : validateImageRepository value = .ok value') : value' = value := by
  rw [validateImageRepository] at h
  by_cases h₁ : value = "" ∨ value ≠ strip value
  · rw [if_pos h₁] at h; cases h
  by_cases h₂ : ∃ marker ∈ ["://", "?", "#", "@"], marker.toList <:+: value.toList
  · rw [if_neg h₁, if_pos h₂] at h; cases h
  by_cases h₃ : startsWith value "/" = true ∨ "//".toList <:+: value.toList
  · rw [if_neg h₁, if_neg h₂, if_pos h₃] at h; cases h
  rw [if_neg h₁, if_neg h₂, if_neg h₃] at h
  split at h
  · split at h
    · cases h
    obtain ⟨-, -, h⟩ := bind_ok h
    dsimp only at h
    split at h
    · cases h
    · cases h; rfl
  · cases h

/-! ### The pipeline decides it -/

namespace Pipeline

/-- The pattern leaves no more than five digits. -/
theorem length_portDigits {registry : String} (h : isRegistry registry = true)
    (hne : portOf registry ≠ "") : (portDigits (portOf registry)).toList.length ≤ 5 := by
  rcases isRegistry_cases h with ⟨hs, hc⟩ | ⟨hs, -, name, port, hr, hp⟩ | ⟨hs, -, e | ⟨port, e, hp⟩⟩
  · rw [portOf, if_neg (by rw [hs]; decide), rsplit_eq_none hc] at hne
    exact absurd rfl hne
  · obtain ⟨-, hd, -, hlen, -⟩ := portDigits_of_isPortText hp
    rw [portOf, if_neg (by rw [hs]; decide), hr]
    dsimp only
    rw [hd]
    exact hlen
  · rw [portOf, if_pos hs] at hne
    exact absurd e hne
  · obtain ⟨-, -, hd, hlen, -⟩ := portDigits_of_isPortText hp
    rw [portOf, if_pos hs, e, hd]
    exact hlen

theorem validateRepository_iff {value : String} :
    validateRepository (registryOf value) value = .ok value ↔
      ∃ registry path, ImageRepository value registry path := by
  cases hcut : splitOnce '/' value with
  | none =>
      rw [validateRepository, hcut]
      constructor
      · intro h; cases h
      · rintro ⟨registry, path, h⟩
        rw [h.cut] at hcut
        cases hcut
  | some p =>
      obtain ⟨registry, path⟩ := p
      have hof : registryOf value = registry := by rw [registryOf, hcut]
      rw [validateRepository, hcut, hof]
      dsimp only
      constructor
      · intro h
        -- The tests in the order in which they are made.
        by_cases h₁ : isRegistry registry = false
        · rw [if_pos h₁] at h; cases h
        by_cases h₂ : startsWith registry "[" = true ∧ isIPv6 (unbracket registry).1.toList = false
        · rw [if_neg h₁, if_pos h₂] at h; cases h
        by_cases h₃ : portOf registry ≠ "" ∧ (5 < (portDigits (portOf registry)).toList.length ∨
            isPortNumber (portDigits (portOf registry)) = false)
        · rw [if_neg h₁, if_neg h₂, if_pos h₃] at h; cases h
        by_cases h₄ : lowerText registry ≠ "localhost" ∧ '.' ∉ registry.toList ∧
            ':' ∉ registry.toList
        · rw [if_neg h₁, if_neg h₂, if_neg h₃, if_pos h₄] at h; cases h
        by_cases h₅ : isRepositoryPath path = false ∨ 255 < path.toList.length
        · rw [if_neg h₁, if_neg h₂, if_neg h₃, if_neg h₄, if_pos h₅] at h; cases h
        obtain ⟨hpath, hlen⟩ := not_or.mp h₅
        refine ⟨registry, path, hcut, ⟨by simpa using h₁, fun hs => ?_, fun hne => ?_, ?_⟩,
          by simpa using hpath, Nat.not_lt.mp hlen⟩
        · simpa using fun e => h₂ ⟨hs, e⟩
        · simpa using fun e => h₃ ⟨hne, .inr e⟩
        · by_contra hq
          obtain ⟨q₁, q₂⟩ := not_or.mp hq
          exact h₄ ⟨q₁, fun e => q₂ (.inl e), fun e => q₂ (.inr e)⟩
      · rintro ⟨registry', path', h⟩
        obtain ⟨rfl, rfl⟩ : registry = registry' ∧ path = path' := by
          have := hcut.symm.trans h.cut
          simpa using this
        -- None of the tests refuses it.
        rw [if_neg, if_neg, if_neg, if_neg, if_neg, if_neg]
        · exact fun e => e rfl
        · rintro (e | e)
          · rw [h.components] at e; cases e
          · exact absurd e (Nat.not_lt.mpr h.bounded)
        · rintro ⟨e₁, e₂, e₃⟩
          have := h.host.qualified
          tauto
        · rintro ⟨hne, e | e⟩
          · exact absurd e (Nat.not_lt.mpr (length_portDigits h.host.form hne))
          · rw [h.host.port hne] at e; cases e
        · rintro ⟨hs, e⟩
          rw [h.host.address hs] at e; cases e
        · rw [h.host.form]; decide

theorem validateRepository_ok {harborRegistry value value' : String}
    (h : validateRepository harborRegistry value = .ok value') : value' = value := by
  rw [validateRepository] at h
  split at h
  · cases h
  · dsimp only at h
    repeat' split at h
    all_goals first | (cases h; done) | (cases h; rfl)

end Pipeline

/-! ### They agree -/

/-- The worker and the pipeline accept the same references, and the worker sends the registry that
the pipeline wants to see. -/
theorem repository_agreement (s : String) :
    ((∃ v, validateImageRepository s = .ok v) ↔
      ∃ v, Pipeline.validateRepository (registryOf s) s = .ok v) ∧
    ∀ registry, registryFromImageRepository s = .ok registry →
      Pipeline.validateRepository registry s = .ok s := by
  have hboth : validateImageRepository s = .ok s ↔
      Pipeline.validateRepository (registryOf s) s = .ok s :=
    validateImageRepository_iff.trans Pipeline.validateRepository_iff.symm
  refine ⟨⟨?_, ?_⟩, ?_⟩
  · rintro ⟨v, hv⟩
    obtain rfl := validateImageRepository_ok hv
    exact ⟨v, hboth.mp hv⟩
  · rintro ⟨v, hv⟩
    obtain rfl := Pipeline.validateRepository_ok hv
    exact ⟨v, hboth.mpr hv⟩
  · intro registry h
    rw [registryFromImageRepository] at h
    obtain ⟨v, hv, h'⟩ := bind_ok h
    obtain rfl := validateImageRepository_ok hv
    cases h'
    exact hboth.mp hv

example : validateImageRepository "[::1]:5000/apps/a.b_c__d--e" = .ok "[::1]:5000/apps/a.b_c__d--e" ∧
    validateImageRepository "harbor/apps/app" =
      namingError "image repository registry host must be qualified or include a port" := by
  decide

end Orchestrator
