import Orchestrator.Docker.Workspaces
import Orchestrator.Graphs.Acyclic

/-!
# Docker — the order of deployment

`_deployment_order` and the dependencies that `validate_compose` accepts.

* `WellDeclared`, `namesOf`: what `depends_on` says.
* `DependsOn`, `Sound`: the graph of a document, and when it has an order.
* `orderRounds_follows`, `orderRounds_total`, `orderRounds_congr`: the rounds put dependencies
  first, get through every acyclic graph, and only look at the graph.
-/

namespace Orchestrator.DockerSwarmAdapter
open Graphs

/-! ### The rounds -/

/-- The names with what each still waits for. -/
abbrev Waiting := List (String × List String)

/-- What a round takes. -/
def readyOf (remaining : Waiting) : List String :=
  ((remaining.filter fun e => e.2.isEmpty).map Prod.fst).insertionSort (· ≤ ·)

/-- What it leaves. -/
def leftOf (remaining : Waiting) : Waiting :=
  (remaining.filter fun e => !(readyOf remaining).contains e.1).map fun e =>
    (e.1, e.2.filter fun s => !(readyOf remaining).contains s)

def Waits (remaining : Waiting) (a b : String) : Prop := ∃ l, (a, l) ∈ remaining ∧ b ∈ l

theorem orderRounds_succ {n : Nat} {remaining : Waiting} (h : remaining ≠ []) :
    orderRounds (n + 1) remaining =
      if (readyOf remaining).isEmpty then refuse "Compose depends_on contains a cycle"
      else (do .ok (readyOf remaining ++ (← orderRounds n (leftOf remaining)))) := by
  cases remaining with
  | nil => exact absurd rfl h
  | cons e rest => rfl

theorem mem_readyOf {remaining : Waiting} {a : String} :
    a ∈ readyOf remaining ↔ (a, []) ∈ remaining := by
  rw [readyOf, List.mem_insertionSort, List.mem_map]
  constructor
  · rintro ⟨e, he, rfl⟩
    obtain ⟨he, hempty⟩ := List.mem_filter.mp he
    obtain ⟨a, l⟩ := e
    rw [List.isEmpty_iff] at hempty
    rwa [← hempty]
  · intro h
    exact ⟨(a, []), List.mem_filter.mpr ⟨h, rfl⟩, rfl⟩

theorem mem_leftOf {remaining : Waiting} {a : String} {l : List String} :
    (a, l) ∈ leftOf remaining ↔ a ∉ readyOf remaining ∧ ∃ l', (a, l') ∈ remaining ∧
      l = l'.filter fun s => !(readyOf remaining).contains s := by
  rw [leftOf, List.mem_map]
  constructor
  · rintro ⟨⟨a', l'⟩, he, hal⟩
    obtain ⟨rfl, rfl⟩ := Prod.mk.inj hal
    obtain ⟨he, hready⟩ := List.mem_filter.mp he
    exact ⟨by simpa using hready, l', he, rfl⟩
  · rintro ⟨hready, l', he, rfl⟩
    exact ⟨(a, l'), List.mem_filter.mpr ⟨he, by simpa using hready⟩, rfl⟩

theorem length_leftOf {remaining : Waiting} (h : readyOf remaining ≠ []) :
    (leftOf remaining).length < remaining.length := by
  obtain ⟨a, ha⟩ := List.exists_mem_of_ne_nil _ h
  rw [leftOf, List.length_map]
  refine List.length_filter_lt_length_iff_exists.mpr ⟨(a, []), mem_readyOf.mp ha, ?_⟩
  simpa using ha

theorem keys_leftOf (remaining : Waiting) :
    ((leftOf remaining).map Prod.fst).Sublist (remaining.map Prod.fst) := by
  rw [leftOf, List.map_map]
  exact List.filter_sublist.map _

/-- A round goes on from what the next ones do. -/
theorem orderRounds_ok_succ {n : Nat} {remaining : Waiting} {order : List String}
    (hne : remaining ≠ []) (h : orderRounds (n + 1) remaining = .ok order) :
    readyOf remaining ≠ [] ∧
      ∃ rest, orderRounds n (leftOf remaining) = .ok rest ∧ order = readyOf remaining ++ rest := by
  rw [orderRounds_succ hne] at h
  by_cases hready : (readyOf remaining).isEmpty = true
  · rw [if_pos hready] at h
    cases h
  rw [if_neg hready] at h
  obtain ⟨rest, hrest, h'⟩ := bind_ok h
  refine ⟨by simpa using hready, rest, hrest, ?_⟩
  cases h'
  rfl

/-- The order that the rounds make puts everything after what it waits for. -/
theorem orderRounds_follows {n : Nat} : ∀ {remaining : Waiting} {order : List String},
    (remaining.map Prod.fst).Nodup → orderRounds n remaining = .ok order →
      FollowsAfter (Waits remaining) [] order := by
  induction n with
  | zero =>
      intro remaining order _ h
      cases remaining with
      | nil => cases h; trivial
      | cons e rest => cases h
  | succ n ih =>
      intro remaining order hnd h
      by_cases hne : remaining = []
      · subst hne
        cases h
        trivial
      obtain ⟨-, rest, hrest, rfl⟩ := orderRounds_ok_succ hne h
      have hleft : ((leftOf remaining).map Prod.fst).Nodup := hnd.sublist (keys_leftOf remaining)
      have hperm := orderRounds_perm hleft hrest
      refine FollowsAfter.append ?_ ?_
      · rintro a ha b ⟨l, hl, hb⟩
        -- The names are different, so a name that waits for nothing has no other entry.
        have := List.inj_on_of_nodup_map hnd hl (mem_readyOf.mp ha) rfl
        rw [(Prod.mk.inj this).2] at hb
        cases hb
      · refine (ih hleft hrest).relax (fun a ha => by cases ha) ?_
        rintro a ha b ⟨l, hl, hb⟩
        by_cases hready : b ∈ readyOf remaining
        · exact .inl (List.mem_append_right _ hready)
        refine .inr ⟨l.filter fun s => !(readyOf remaining).contains s, mem_leftOf.mpr ⟨?_, l, hl, rfl⟩,
          List.mem_filter.mpr ⟨hb, by simpa using hready⟩⟩
        obtain ⟨⟨a', l'⟩, he, rfl⟩ := List.mem_map.mp (hperm.subset ha)
        exact (mem_leftOf.mp he).1

/-- Where everything waits for names that are there, and nothing for itself, the rounds come to
an end. -/
theorem orderRounds_total {n : Nat} : ∀ {remaining : Waiting}, remaining.length ≤ n →
    (∀ a b, Waits remaining a b → b ∈ remaining.map Prod.fst) → Acyclic (Waits remaining) →
    ∃ order, orderRounds n remaining = .ok order := by
  induction n with
  | zero =>
      intro remaining hn _ _
      rw [List.length_eq_zero_iff.mp (Nat.le_zero.mp hn)]
      exact ⟨[], rfl⟩
  | succ n ih =>
      intro remaining hn hclosed hacyclic
      by_cases hne : remaining = []
      · rw [hne]
        exact ⟨[], rfl⟩
      obtain ⟨a, ha, hsource⟩ := hacyclic.exists_source (l := remaining.map Prod.fst) (by simpa)
      obtain ⟨⟨a', l⟩, he, rfl⟩ := List.mem_map.mp ha
      have hl : l = [] := by
        by_contra hl
        obtain ⟨b, hb⟩ := List.exists_mem_of_ne_nil l hl
        have hwaits : Waits remaining a' b := ⟨l, he, hb⟩
        exact hsource b (hclosed a' b hwaits) hwaits
      subst hl
      have hready : readyOf remaining ≠ [] := List.ne_nil_of_mem (mem_readyOf.mpr he)
      have hwaits : ∀ a b, Waits (leftOf remaining) a b →
          Waits remaining a b ∧ b ∉ readyOf remaining := by
        rintro a b ⟨l, hl, hb⟩
        obtain ⟨-, l', hl', rfl⟩ := mem_leftOf.mp hl
        obtain ⟨hb, hb'⟩ := List.mem_filter.mp hb
        exact ⟨⟨l', hl', hb⟩, by simpa using hb'⟩
      obtain ⟨rest, hrest⟩ := @ih (leftOf remaining)
        (Nat.le_of_lt_succ (Nat.lt_of_lt_of_le (length_leftOf hready) hn))
        (by
          intro a b hab
          obtain ⟨hab, hb⟩ := hwaits a b hab
          obtain ⟨⟨b', l⟩, he, rfl⟩ := List.mem_map.mp (hclosed a b hab)
          exact List.mem_map.mpr ⟨_, mem_leftOf.mpr ⟨hb, l, he, rfl⟩, rfl⟩)
        (hacyclic.mono fun a b hab => (hwaits a b hab).1)
      refine ⟨readyOf remaining ++ rest, ?_⟩
      rw [orderRounds_succ hne, if_neg (by simpa using hready), hrest]
      rfl

/-- As many rounds as there are names are always enough: what ends the rounds is a cycle. -/
theorem orderRounds_fuel {n : Nat} : ∀ {m : Nat} {remaining : Waiting},
    remaining.length ≤ n → remaining.length ≤ m →
    orderRounds n remaining = orderRounds m remaining := by
  induction n with
  | zero =>
      intro m remaining hn _
      rw [List.length_eq_zero_iff.mp (Nat.le_zero.mp hn)]
      cases m <;> rfl
  | succ n ih =>
      intro m remaining hn hm
      by_cases hne : remaining = []
      · rw [hne]
        cases m <;> rfl
      cases m with
      | zero => exact absurd (List.length_eq_zero_iff.mp (Nat.le_zero.mp hm)) hne
      | succ m =>
          rw [orderRounds_succ hne, orderRounds_succ hne]
          by_cases hready : readyOf remaining = []
          · rw [hready]; rfl
          · have := length_leftOf hready
            rw [@ih m (leftOf remaining) (by omega) (by omega)]

/-- The same names wait for the same names, in whatever order they are listed. -/
def Alike (remaining remaining' : Waiting) : Prop :=
  ∃ mid, remaining.Perm mid ∧
    List.Forall₂ (fun e f => e.1 = f.1 ∧ ∀ s, s ∈ e.2 ↔ s ∈ f.2) mid remaining'

theorem isEmpty_congr {l l' : List String} (h : ∀ s, s ∈ l ↔ s ∈ l') : l.isEmpty = l'.isEmpty := by
  rw [Bool.eq_iff_iff, List.isEmpty_iff, List.isEmpty_iff, List.eq_nil_iff_forall_not_mem,
    List.eq_nil_iff_forall_not_mem]
  exact forall_congr' fun s => not_congr (h s)

theorem forall₂_filter {α β : Type} {R : α → β → Prop} {p : α → Bool} {q : β → Bool}
    (hpq : ∀ a b, R a b → p a = q b) {l : List α} {l' : List β} (h : List.Forall₂ R l l') :
    List.Forall₂ R (l.filter p) (l'.filter q) := by
  induction h with
  | nil => exact .nil
  | @cons a b l l' hab _ ih =>
      rw [List.filter_cons, List.filter_cons, hpq a b hab]
      split
      · exact .cons hab ih
      · exact ih

theorem forall₂_map_eq {α β γ : Type} {R : α → β → Prop} {f : α → γ} {g : β → γ}
    (hfg : ∀ a b, R a b → f a = g b) {l : List α} {l' : List β} (h : List.Forall₂ R l l') :
    l.map f = l'.map g := by
  induction h with
  | nil => rfl
  | cons hab _ ih => rw [List.map_cons, List.map_cons, hfg _ _ hab, ih]

theorem readyOf_congr {remaining remaining' : Waiting} (h : Alike remaining remaining') :
    readyOf remaining = readyOf remaining' := by
  obtain ⟨mid, hperm, hsame⟩ := h
  have hmid : (mid.filter fun e => e.2.isEmpty).map Prod.fst =
      (remaining'.filter fun e => e.2.isEmpty).map Prod.fst :=
    forall₂_map_eq (fun e f he => he.1) (forall₂_filter (fun e f he => isEmpty_congr he.2) hsame)
  rw [readyOf, readyOf, ← hmid]
  refine List.Perm.eq_of_pairwise' (r := (· ≤ ·)) (List.pairwise_insertionSort _ _)
    (List.pairwise_insertionSort _ _) ?_
  exact (List.perm_insertionSort _ _).trans
    (((hperm.filter _).map _).trans (List.perm_insertionSort _ _).symm)

theorem leftOf_congr {remaining remaining' : Waiting} (h : Alike remaining remaining') :
    Alike (leftOf remaining) (leftOf remaining') := by
  have hready := readyOf_congr h
  obtain ⟨mid, hperm, hsame⟩ := h
  rw [leftOf, leftOf, ← hready]
  refine ⟨_, (hperm.filter _).map _, ?_⟩
  rw [List.forall₂_map_left_iff, List.forall₂_map_right_iff]
  refine (forall₂_filter (fun e f he => by rw [he.1]) hsame).imp fun e f he => ⟨he.1, fun s => ?_⟩
  rw [List.mem_filter, List.mem_filter, he.2 s]

theorem Alike.length {remaining remaining' : Waiting} (h : Alike remaining remaining') :
    remaining.length = remaining'.length := by
  obtain ⟨mid, hperm, hsame⟩ := h
  exact hperm.length_eq.trans hsame.length_eq

/-- The rounds only look at who waits for whom. -/
theorem orderRounds_congr {n : Nat} : ∀ {remaining remaining' : Waiting},
    Alike remaining remaining' → orderRounds n remaining = orderRounds n remaining' := by
  induction n with
  | zero =>
      intro remaining remaining' h
      have := h.length
      cases remaining with
      | nil => rw [List.length_eq_zero_iff.mp this.symm]
      | cons e rest =>
          cases remaining' with
          | nil => cases this
          | cons f rest' => rfl
  | succ n ih =>
      intro remaining remaining' h
      have hlength := h.length
      by_cases hne : remaining = []
      · subst hne
        rw [List.length_eq_zero_iff.mp hlength.symm]
      have hne' : remaining' ≠ [] := by
        rintro rfl
        exact hne (List.length_eq_zero_iff.mp hlength)
      rw [orderRounds_succ hne, orderRounds_succ hne', readyOf_congr h, ih (leftOf_congr h)]

/-! ### The graph of a document -/

/-- A `depends_on` of names, or of names with nothing to configure. -/
inductive WellDeclared : Document → Prop
  | none : WellDeclared .null
  | list {names : List String} (h : ∀ s ∈ names, s ≠ "") : WellDeclared (.list (names.map .str))
  | map {entries : List (String × Document)} (h : ∀ e ∈ entries, e.1 ≠ "" ∧ e.2.isBare = true) :
      WellDeclared (.map (entries.map fun e => (.str e.1, e.2)))

/-- The names in a `depends_on`. -/
def namesOf : Document → List String
  | .list items => items.filterMap fun
      | .str s => some s
      | _ => none
  | .map entries => entries.map fun e => e.1.text
  | _ => []

theorem namesOf_list (names : List String) : namesOf (.list (names.map .str)) = names := by
  rw [namesOf, List.filterMap_map]
  exact List.filterMap_some

theorem texts_map (names : List String) : texts (names.map .str) = some names := by
  induction names with
  | nil => rfl
  | cons s names ih =>
      rw [texts] at ih ⊢
      rw [List.map_cons, List.mapM_cons, ih]
      rfl

theorem dependencies_of_wellDeclared {name : String} {raw : Document} (h : WellDeclared raw) :
    dependencies name raw = .ok (namesOf raw) := by
  cases h with
  | none => rfl
  | @list names h =>
      rw [dependencies, texts_map, namesOf_list]
      refine if_neg fun e => ?_
      exact h "" (by simpa using e) rfl
  | @map entries h =>
      rw [dependencies, namesOf]
      refine if_pos (List.all_eq_true.mpr fun e he => ?_)
      obtain ⟨e', he', rfl⟩ := List.mem_map.mp he
      simpa [Key.str?] using (h e' he').1

/-- A service of the document depends on a name. -/
def DependsOn (services : Services) (a b : String) : Prop :=
  ∃ s ∈ services, s.1 = a ∧ b ∈ namesOf (field s.2 "depends_on")

/-- Every dependency is a service, and none depends on itself. -/
structure Sound (services : Services) : Prop where
  known : ∀ a b, DependsOn services a b → b ∈ services.map Prod.fst
  acyclic : Acyclic (DependsOn services)

/-- What `_deployment_order` starts from. -/
def waitingOf (services : Services) : Waiting :=
  services.map fun s => (s.1, namesOf (field s.2 "depends_on"))

theorem keys_waitingOf (services : Services) :
    (waitingOf services).map Prod.fst = services.map Prod.fst := by
  rw [waitingOf, List.map_map]
  rfl

theorem waits_waitingOf {services : Services} {a b : String} :
    Waits (waitingOf services) a b ↔ DependsOn services a b := by
  constructor
  · rintro ⟨l, hl, hb⟩
    obtain ⟨s, hs, he⟩ := List.mem_map.mp hl
    obtain ⟨rfl, rfl⟩ := Prod.mk.inj he
    exact ⟨s, hs, rfl, hb⟩
  · rintro ⟨s, hs, rfl, hb⟩
    exact ⟨_, List.mem_map.mpr ⟨s, hs, rfl⟩, hb⟩

theorem deploymentOrder_eq {services : Services}
    (h : ∀ s ∈ services, WellDeclared (field s.2 "depends_on")) :
    deploymentOrder services = orderRounds services.length (waitingOf services) := by
  have hmap : services.mapM (fun s : String × Fields => do
      Except.ok (s.1, ← dependencies s.1 (field s.2 "depends_on"))) =
      (Except.ok (waitingOf services) : Except Exc Waiting) := by
    induction services with
    | nil => rfl
    | cons s services ih =>
        rw [List.mapM_cons, dependencies_of_wellDeclared (h s List.mem_cons_self),
          ih fun s hs => h s (List.mem_cons_of_mem _ hs)]
        rfl
  rw [deploymentOrder, hmap]
  show orderRounds (waitingOf services).length (waitingOf services) = _
  rw [waitingOf, List.length_map]

theorem deploymentOrder_follows {services : Services} {order : List String}
    (hnd : (services.map Prod.fst).Nodup)
    (hdecl : ∀ s ∈ services, WellDeclared (field s.2 "depends_on"))
    (h : deploymentOrder services = .ok order) : Follows (DependsOn services) order := by
  rw [deploymentOrder_eq hdecl] at h
  have := orderRounds_follows (by rwa [keys_waitingOf]) h
  exact (this.relax (fun a ha => ha) fun a _ b hb => .inr (waits_waitingOf.mpr hb)).follows

/-- There is an order exactly where the graph is sound. -/
theorem deploymentOrder_iff {services : Services} (hnd : (services.map Prod.fst).Nodup)
    (hdecl : ∀ s ∈ services, WellDeclared (field s.2 "depends_on")) :
    (∃ order, deploymentOrder services = .ok order) ↔ Sound services := by
  have hkey : ∀ a b, DependsOn services a b → a ∈ services.map Prod.fst := by
    rintro a b ⟨s, hs, rfl, -⟩
    exact List.mem_map_of_mem hs
  constructor
  · rintro ⟨order, h⟩
    have hfollows := deploymentOrder_follows hnd hdecl h
    have hperm := deploymentOrder_perm hnd h
    constructor
    · intro a b hab
      obtain ⟨before, after, ho⟩ := List.append_of_mem (hperm.symm.subset (hkey a b hab))
      refine hperm.subset ?_
      rw [ho]
      exact List.mem_append_left _ (hfollows before a after ho b hab)
    · exact hfollows.acyclic fun a b hab => hperm.symm.subset (hkey a b hab)
  · rintro ⟨hknown, hacyclic⟩
    rw [deploymentOrder_eq hdecl]
    refine orderRounds_total (by rw [waitingOf, List.length_map]) (fun a b hab => ?_)
      (hacyclic.mono fun a b hab => waits_waitingOf.mp hab)
    rw [keys_waitingOf]
    exact hknown a b (waits_waitingOf.mp hab)

/-- The entries of a document, and the names in each `depends_on`, in another order. -/
def Reordered (services services' : Services) : Prop :=
  ∃ mid, services.Perm mid ∧ List.Forall₂ (fun s t => s.1 = t.1 ∧
    WellDeclared (field t.2 "depends_on") ∧
    (namesOf (field s.2 "depends_on")).Perm (namesOf (field t.2 "depends_on"))) mid services'

theorem deploymentOrder_reordered {services services' : Services}
    (hdecl : ∀ s ∈ services, WellDeclared (field s.2 "depends_on"))
    (h : Reordered services services') : deploymentOrder services' = deploymentOrder services := by
  obtain ⟨mid, hperm, hsame⟩ := h
  have hdecl' : ∀ t ∈ services', WellDeclared (field t.2 "depends_on") := by
    intro t ht
    obtain ⟨s, -, hs⟩ := forall₂_mem_right hsame ht
    exact hs.2.1
  have halike : Alike (waitingOf services) (waitingOf services') := by
    refine ⟨_, hperm.map _, ?_⟩
    rw [waitingOf, List.forall₂_map_left_iff, List.forall₂_map_right_iff]
    exact hsame.imp fun s t h => ⟨h.1, fun x => h.2.2.mem_iff⟩
  rw [deploymentOrder_eq hdecl, deploymentOrder_eq hdecl', orderRounds_congr halike,
    hperm.length_eq, hsame.length_eq]

/-! ### What `validate_compose` says of it -/

/-- An error about dependencies. -/
def DependencyError (e : Exc) : Prop :=
  (∃ name dependency : String,
    e = exc .dockerService s!"Compose service {name} depends on unknown service {dependency}") ∨
  e = exc .dockerService "Compose depends_on contains a cycle"

/-- A definition without its dependencies. -/
def bare (definition : Fields) : Fields := definition.filter fun e => e.1 != .str "depends_on"

def bareServices (services : Services) : Services := services.map fun s => (s.1, bare s.2)

def bareEntry (e : Key × Document) : Key × Document :=
  (e.1, match e.2 with
    | .map definition => .map (bare definition)
    | d => d)

/-- A document without its dependencies. -/
def withoutDependencies : Document → Document
  | .map compose => match compose.lookup (.str "services") with
      | some (.map services) =>
          .map (setField compose "services" (.map (services.map bareEntry)))
      | _ => .map compose
  | d => d

theorem lookup_filter_ne {d : Fields} {k k' : Key} (h : k' ≠ k) :
    (d.filter fun e => e.1 != k).lookup k' = d.lookup k' := by
  induction d with
  | nil => rfl
  | cons e d ih =>
      obtain ⟨k₁, x⟩ := e
      rw [List.filter_cons]
      by_cases hk : k₁ = k
      · rw [if_neg (by simp [hk]), ih, List.lookup_cons, beq_false_of_ne (hk ▸ h)]
      · rw [if_pos (by simp [hk]), List.lookup_cons, List.lookup_cons, ih]

theorem field_bare {d : Fields} {key : String} (h : key ≠ "depends_on") :
    field (bare d) key = field d key := by
  rw [field, bare, lookup_filter_ne fun e => h (Key.str.inj e)]
  rfl

theorem hasField_bare {d : Fields} {key : String} (h : key ≠ "depends_on") :
    hasField (bare d) key = hasField d key := by
  rw [hasField, bare, lookup_filter_ne fun e => h (Key.str.inj e)]
  rfl

theorem field_bare_dependencies (d : Fields) : field (bare d) "depends_on" = .null := by
  have : (bare d).lookup (.str "depends_on") = none := by
    rw [List.lookup_eq_none_iff]
    intro e he
    have := (List.mem_filter.mp he).2
    simpa using fun h => (bne_iff_ne.mp this) h.symm
  rw [field, this]
  rfl

theorem validateConversions_bare (U : DockerUtils) (name ns : String) (d : Fields) :
    validateConversions U name ns (bare d) = validateConversions U name ns d := by
  unfold validateConversions
  simp (disch := decide) only [field_bare]

/-- `depends_on` is a field like any other that is supported. -/
theorem mapM_rejectedField_bare (d : Fields) :
    ((bare d).mapM fun e => rejectedField e.1).map (List.filterMap id) =
      (d.mapM fun e => rejectedField e.1).map (List.filterMap id) := by
  have hcons : ∀ (e : Key × Document) (d : Fields),
      ((e :: d).mapM fun e => rejectedField e.1).map (List.filterMap id) =
        match rejectedField e.1, (d.mapM fun e => rejectedField e.1).map (List.filterMap id) with
        | .error x, _ => .error x
        | .ok _, .error x => .error x
        | .ok none, .ok l => .ok l
        | .ok (some s), .ok l => .ok (s :: l) := by
    intro e d
    rw [List.mapM_cons]
    cases rejectedField e.1 with
    | error x => rfl
    | ok r =>
        cases List.mapM (fun e : Key × Document => rejectedField e.1) d with
        | error x => rfl
        | ok l => cases r with
          | none => rfl
          | some s => rfl
  induction d with
  | nil => rfl
  | cons e d ih =>
      rw [hcons]
      by_cases he : e.1 = .str "depends_on"
      · have hbare : bare (e :: d) = bare d := by
          rw [bare, List.filter_cons, if_neg (by simp [he])]
          rfl
        have hok : rejectedField e.1 = .ok none := by rw [he]; decide
        rw [hbare, ih, hok]
        cases (d.mapM fun e => rejectedField e.1).map (List.filterMap id) <;> rfl
      · have hbare : bare (e :: d) = e :: bare d := by
          rw [bare, List.filter_cons, if_pos (by simpa using he)]
          rfl
        rw [hbare, hcons, ih]

theorem validateFields_bare (name : String) (d : Fields) :
    validateFields name (bare d) = validateFields name d := by
  have h := mapM_rejectedField_bare d
  rw [validateFields, validateFields, hasField_bare (by decide)]
  split
  · rfl
  · cases hd : d.mapM fun e => rejectedField e.1 with
    | error x =>
        cases hb : (bare d).mapM fun e => rejectedField e.1 with
        | error y => rw [hd, hb] at h; cases h; rfl
        | ok l => rw [hd, hb] at h; cases h
    | ok l =>
        cases hb : (bare d).mapM fun e => rejectedField e.1 with
        | error y => rw [hd, hb] at h; cases h
        | ok l' =>
            rw [hd, hb] at h
            have h : l'.filterMap id = l.filterMap id := Except.ok.inj h
            show (if (l'.filterMap id).isEmpty then _ else _) = _
            rw [h]
            rfl

/-- The check of the dependencies of a service. -/
def checkDependencies (services : Services) (name : String) (d : Fields) : Except Exc Unit := do
  checkEach (← dependencyEntries name (field d "depends_on")) (validateDependency services name)

/-- The checks before it. -/
def checkRest (U : DockerUtils) (name : String) (d : Fields) : Except Exc Unit := do
  validateConversions U name "validation" d
  validateFields name d
  validateDeploy U name (field d "deploy")

theorem validateService_eq (U : DockerUtils) (services : Services) (name : String) (d : Fields) :
    validateService U services name d = (do checkRest U name d; checkDependencies services name d) := by
  unfold validateService checkRest checkDependencies
  cases validateConversions U name "validation" d with
  | error e => rfl
  | ok _ => cases validateFields name d with
    | error e => rfl
    | ok _ => cases validateDeploy U name (field d "deploy") with
      | error e => rfl
      | ok _ => rfl

theorem checkRest_bare (U : DockerUtils) (name : String) (d : Fields) :
    checkRest U name (bare d) = checkRest U name d := by
  rw [checkRest, checkRest, validateConversions_bare, validateFields_bare, field_bare (by decide)]

/-- A name with nothing to configure only has to be known. -/
theorem validateDependency_bare {services : Services} {name dependency : String} {config : Document}
    (hne : dependency ≠ "") (hbare : config.isBare = true) :
    validateDependency services name (.str dependency, config) =
      if dependency ∈ services.map Prod.fst then .ok ()
      else refuse s!"Compose service {name} depends on unknown service {dependency}" := by
  have hlookup : services.lookup dependency = none ↔ dependency ∉ services.map Prod.fst := by
    rw [List.lookup_eq_none_iff]
    constructor
    · intro h hm
      obtain ⟨s, hs, rfl⟩ := List.mem_map.mp hm
      simpa using h s hs
    · intro h s hs
      simpa using fun e : dependency = s.1 => h (e ▸ List.mem_map_of_mem hs)
  -- With bare settings only the look-up is left.
  have hcases : ∀ target : Option Fields, services.lookup dependency = target →
      validateDependency services name (.str dependency, config) =
        if target.isSome then .ok ()
        else refuse s!"Compose service {name} depends on unknown service {dependency}" := by
    intro target htarget
    unfold validateDependency
    dsimp only [Key.str?, Key.text]
    rw [htarget]
    split
    · next e => cases e
    · next e => exact absurd (Option.some.inj e) hne
    · next e => cases e; rfl
    · cases config with
      | null => rfl
      | map entries => cases entries with
        | nil => rfl
        | cons e l => cases hbare
      | bool b => cases hbare
      | int n => cases hbare
      | float x => cases hbare
      | str s => cases hbare
      | list l => cases hbare
      | other t b n => cases hbare
  rw [hcases _ rfl]
  cases hl : services.lookup dependency with
  | none => rw [if_neg (hlookup.mp hl)]; rfl
  | some target =>
      have hk : dependency ∈ services.map Prod.fst := by
        by_contra e
        rw [hlookup.mpr e] at hl
        cases hl
      rw [if_pos hk]
      rfl

/-- What `validate_compose` reads of a `depends_on`. -/
theorem dependencyEntries_of_wellDeclared {name : String} {raw : Document} (h : WellDeclared raw) :
    ∃ l : List (String × Document),
      dependencyEntries name raw = .ok (l.map fun e => (.str e.1, e.2)) ∧
      (∀ e ∈ l, e.1 ≠ "" ∧ e.2.isBare = true) ∧ namesOf raw = l.map Prod.fst := by
  cases h with
  | none => exact ⟨[], rfl, by simp, rfl⟩
  | @list names h =>
      refine ⟨names.map fun s => (s, .map []), ?_, ?_, ?_⟩
      · rw [dependencyEntries, texts_map]
        refine (if_neg fun e => h "" (by simpa using e) rfl).trans ?_
        rw [List.map_map]
        rfl
      · intro e he
        obtain ⟨s, hs, rfl⟩ := List.mem_map.mp he
        exact ⟨h s hs, rfl⟩
      · rw [namesOf_list, List.map_map]
        exact (List.map_id names).symm
  | @map entries h => exact ⟨entries, rfl, h, by rw [namesOf, List.map_map]; rfl⟩

theorem checkEach_error {α : Type} {l : List α} {check : α → Except Exc Unit} {e : Exc}
    (h : checkEach l check = .error e) : ∃ a ∈ l, check a = .error e := by
  induction l with
  | nil => cases h
  | cons a l ih =>
      rw [checkEach] at h
      cases ha : check a with
      | error x =>
          rw [ha] at h
          cases h
          exact ⟨a, List.mem_cons_self, ha⟩
      | ok _ =>
          rw [ha] at h
          obtain ⟨b, hb, he⟩ := ih h
          exact ⟨b, List.mem_cons_of_mem _ hb, he⟩

theorem checkEach_congr {α : Type} {l : List α} {check check' : α → Except Exc Unit}
    (h : ∀ a ∈ l, check a = check' a) : checkEach l check = checkEach l check' := by
  induction l with
  | nil => rfl
  | cons a l ih =>
      rw [checkEach, checkEach, h a List.mem_cons_self, ih fun b hb => h b (List.mem_cons_of_mem _ hb)]

theorem checkEach_map {α β : Type} (g : α → β) (l : List α) (check : β → Except Exc Unit) :
    checkEach (l.map g) check = checkEach l fun a => check (g a) := by
  induction l with
  | nil => rfl
  | cons a l ih => rw [List.map_cons, checkEach, checkEach, ih]

/-- The dependencies of a service are known, or the check says which is not. -/
theorem checkDependencies_cases {services : Services} {name : String} {d : Fields}
    (h : WellDeclared (field d "depends_on")) :
    (checkDependencies services name d = .ok () ∧
      ∀ b ∈ namesOf (field d "depends_on"), b ∈ services.map Prod.fst) ∨
    ∃ e, checkDependencies services name d = .error e ∧ DependencyError e ∧
      ∃ b ∈ namesOf (field d "depends_on"), b ∉ services.map Prod.fst := by
  obtain ⟨l, hl, hbare, hnames⟩ := @dependencyEntries_of_wellDeclared name _ h
  have hcheck : checkDependencies services name d =
      checkEach l fun e => if e.1 ∈ services.map Prod.fst then .ok ()
        else refuse s!"Compose service {name} depends on unknown service {e.1}" := by
    rw [checkDependencies, hl]
    show checkEach (l.map fun e => (Key.str e.1, e.2)) _ = _
    rw [checkEach_map]
    exact checkEach_congr fun e he => validateDependency_bare (hbare e he).1 (hbare e he).2
  rw [hcheck, hnames]
  cases hc : checkEach l fun e => if e.1 ∈ services.map Prod.fst then .ok ()
      else refuse s!"Compose service {name} depends on unknown service {e.1}" with
  | ok u =>
      refine .inl ⟨rfl, fun b hb => ?_⟩
      obtain ⟨e, he, rfl⟩ := List.mem_map.mp hb
      have := checkEach_ok.mp hc e he
      by_contra hk
      rw [if_neg hk] at this
      cases this
  | error x =>
      obtain ⟨e, he, hx⟩ := checkEach_error hc
      by_cases hk : e.1 ∈ services.map Prod.fst
      · rw [if_pos hk] at hx
        cases hx
      · rw [if_neg hk] at hx
        cases hx
        exact .inr ⟨_, rfl, .inl ⟨name, e.1, rfl⟩, e.1, List.mem_map_of_mem he, hk⟩

theorem orderRounds_error {n : Nat} : ∀ {remaining : Waiting} {e : Exc},
    orderRounds n remaining = .error e → DependencyError e := by
  induction n with
  | zero =>
      intro remaining e h
      cases remaining with
      | nil => cases h
      | cons x rest => cases h; exact .inr rfl
  | succ n ih =>
      intro remaining e h
      by_cases hne : remaining = []
      · subst hne
        cases h
      rw [orderRounds_succ hne] at h
      by_cases hready : (readyOf remaining).isEmpty = true
      · rw [if_pos hready] at h
        cases h
        exact .inr rfl
      · rw [if_neg hready] at h
        cases hrest : orderRounds n (leftOf remaining) with
        | ok rest => rw [hrest] at h; cases h
        | error x => rw [hrest] at h; cases h; exact ih hrest

/-- The checks of the name and the image. -/
def checkName (requireImages : Bool) (s : String × Fields) : Except Exc Unit := do
  validateServiceName s.1
  if requireImages then validateServiceImage s.1 s.2

/-- Everything that `validate_compose` checks but for the dependencies. -/
def checkOthers (U : DockerUtils) (compose : Document) (services : Services) (requireImages : Bool) :
    Except Exc Unit := do
  validateTopLevel compose
  checkEach services fun s => checkRest U s.1 s.2
  checkEach services (checkName requireImages)

section Validation

variable {U : DockerUtils} {compose : Document} {requireImages : Bool} {services : Services}

theorem validateCompose_eq (hs : composeServices compose = .ok services) :
    validateCompose U compose requireImages = (do
      validateTopLevel compose
      checkEach services fun s => (do checkRest U s.1 s.2; checkDependencies services s.1 s.2)
      let _ ← deploymentOrder services
      checkEach services (checkName requireImages)) := by
  have hfeatures : validateComposeFeatures U services = checkEach services fun s =>
      (do checkRest U s.1 s.2; checkDependencies services s.1 s.2) :=
    checkEach_congr fun s _ => validateService_eq U services s.1 s.2
  unfold validateCompose
  rw [hs]
  cases validateTopLevel compose with
  | error e => rfl
  | ok _ => show (validateComposeFeatures U services >>= _) = _; rw [hfeatures]; rfl

/-- Where the graph is sound, the dependencies make no difference. -/
theorem validateCompose_sound (hs : composeServices compose = .ok services)
    (hnd : (services.map Prod.fst).Nodup)
    (hdecl : ∀ s ∈ services, WellDeclared (field s.2 "depends_on")) (hsound : Sound services) :
    validateCompose U compose requireImages = checkOthers U compose services requireImages := by
  obtain ⟨order, ho⟩ := (deploymentOrder_iff hnd hdecl).mpr hsound
  have hdeps : (checkEach services fun s =>
      (do checkRest U s.1 s.2; checkDependencies services s.1 s.2)) =
        checkEach services fun s => checkRest U s.1 s.2 := by
    refine checkEach_congr fun s hmem => ?_
    rcases @checkDependencies_cases services s.1 _ (hdecl s hmem) with
      ⟨hok, -⟩ | ⟨e, -, -, b, hb, hunknown⟩
    · rw [hok]
      cases checkRest U s.1 s.2 <;> rfl
    · exact absurd (hsound.known s.1 b ⟨s, hmem, rfl, hb⟩) hunknown
  rw [validateCompose_eq hs, hdeps, ho]
  rfl

/-- Where it is not, the document is refused; and for its dependencies, if nothing else is wrong. -/
theorem validateCompose_unsound (hs : composeServices compose = .ok services)
    (hnd : (services.map Prod.fst).Nodup)
    (hdecl : ∀ s ∈ services, WellDeclared (field s.2 "depends_on")) (hsound : ¬ Sound services) :
    validateCompose U compose requireImages ≠ .ok () ∧
      (checkOthers U compose services requireImages = .ok () →
        ∃ e, validateCompose U compose requireImages = .error e ∧ DependencyError e) := by
  have horder : ∃ e, deploymentOrder services = .error e ∧ DependencyError e := by
    cases ho : deploymentOrder services with
    | ok order => exact absurd ((deploymentOrder_iff hnd hdecl).mp ⟨order, ho⟩) hsound
    | error e =>
        rw [deploymentOrder_eq hdecl] at ho
        exact ⟨e, rfl, orderRounds_error ho⟩
  obtain ⟨e, ho, he⟩ := horder
  rw [validateCompose_eq hs]
  constructor
  · intro h
    obtain ⟨_, -, h⟩ := bind_ok h
    obtain ⟨_, -, h⟩ := bind_ok h
    rw [ho] at h
    cases h
  · intro h
    rw [checkOthers] at h
    obtain ⟨_, htop, h⟩ := bind_ok h
    obtain ⟨_, hrest, -⟩ := bind_ok h
    have hdeps : (checkEach services fun s =>
        (do checkRest U s.1 s.2; checkDependencies services s.1 s.2)) =
          checkEach services fun s => checkDependencies services s.1 s.2 :=
      checkEach_congr fun s hmem => by rw [checkEach_ok.mp hrest s hmem]; rfl
    rw [htop, hdeps]
    cases hc : checkEach services fun s => checkDependencies services s.1 s.2 with
    | ok _ => exact ⟨e, by rw [ho]; rfl, he⟩
    | error x =>
        obtain ⟨s, hmem, hx⟩ := checkEach_error hc
        refine ⟨x, rfl, ?_⟩
        rcases @checkDependencies_cases services s.1 _ (hdecl s hmem) with
          ⟨hok, -⟩ | ⟨y, hy, hdep, -⟩
        · rw [hok] at hx; cases hx
        · rw [hy] at hx; cases hx; exact hdep

/-! ### A document without dependencies -/

theorem withoutDependencies_eq {d : Fields} (hs : composeServices (.map d) = .ok services) :
    withoutDependencies (.map d) =
      .map (setField d "services" (.map ((bareServices services).map entryOf))) := by
  obtain ⟨hl, -⟩ := composeServices_iff.mp hs
  rw [withoutDependencies, hl, bareServices]
  dsimp only
  rw [List.map_map, List.map_map]
  rfl

theorem validateTopLevel_setField {d : Fields} {value : Document} (h : hasField d "services" = true) :
    validateTopLevel (.map (setField d "services" value)) = validateTopLevel (.map d) := by
  have hkeys : (setField d "services" value).map (fun e => e.1.text) = d.map fun e => e.1.text := by
    rw [setField, if_pos h, List.map_map]
    refine List.map_congr_left fun e _ => ?_
    rw [Function.comp_apply]
    split <;> rfl
  have hvolumes : field (setField d "services" value) "volumes" = field d "volumes" := by
    rw [field, lookup_setField (by decide)]
    rfl
  rw [validateTopLevel, validateTopLevel, hkeys, hvolumes]

/-- The document without its dependencies is checked for everything else. -/
theorem validateCompose_bare (hs : composeServices compose = .ok services)
    (hnd : (services.map Prod.fst).Nodup) :
    validateCompose U (withoutDependencies compose) requireImages =
      checkOthers U compose services requireImages := by
  cases compose with
  | map d =>
      obtain ⟨hl, hne⟩ := composeServices_iff.mp hs
      have hkeys : (bareServices services).map Prod.fst = services.map Prod.fst := by
        rw [bareServices, List.map_map]; rfl
      have hnone : ∀ s ∈ bareServices services, field s.2 "depends_on" = .null := by
        intro s hmem
        obtain ⟨t, -, rfl⟩ := List.mem_map.mp hmem
        exact field_bare_dependencies t.2
      have hs' : composeServices (withoutDependencies (.map d)) = .ok (bareServices services) := by
        rw [withoutDependencies_eq hs]
        refine composeServices_iff.mpr ⟨lookup_setField_self, ?_⟩
        simpa [bareServices] using hne
      have hempty : ∀ a b, ¬ DependsOn (bareServices services) a b := by
        rintro a b ⟨s, hmem, -, hb⟩
        rw [hnone s hmem] at hb
        cases hb
      -- Without dependencies there is an order, and the other checks are left.
      rw [validateCompose_sound hs' (by rw [hkeys]; exact hnd)
        (fun s hmem => by rw [hnone s hmem]; exact .none)
        ⟨fun a b hab => absurd hab (hempty a b), fun a hab => ?_⟩]
      · rw [checkOthers, checkOthers, withoutDependencies_eq hs,
          validateTopLevel_setField (by rw [hasField, hl]; rfl), bareServices, checkEach_map,
          checkEach_map]
        congr 1
        funext _
        rw [checkEach_congr fun s _ => checkRest_bare U s.1 s.2]
        congr 1
        funext _
        refine checkEach_congr fun s _ => ?_
        rw [checkName, checkName, validateServiceImage, validateServiceImage,
          field_bare (by decide)]
      · obtain ⟨b, hb, -⟩ := Relation.TransGen.head'_iff.mp hab
        exact hempty a b hb
  | null => cases hs
  | bool b => cases hs
  | int n => cases hs
  | float x => cases hs
  | str s => cases hs
  | list l => cases hs
  | other t b n => cases hs

end Validation

end Orchestrator.DockerSwarmAdapter
