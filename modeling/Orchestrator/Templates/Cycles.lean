import Orchestrator.Templates.ServiceNames

/-!
# Templates — cycles

`_assert_acyclic`, beside the order of deployment of the adapter.

* `Normalised`: what `_normalize_dependencies` makes of dependencies.
* `assertAcyclic_iff`: the search rejects the cycles, and ways too deep for its recursion.
* `deployment_order`: `validate_compose` rejects the cycles only, and accepts what has an order.
* `chainOf`: components each of which needs the next.
-/

namespace Orchestrator.Templates.TemplateCatalog
open Graphs

/-- The dependencies are those of the selected components, on each other. -/
structure Normalised (selected : List String) (dependencies : Dependencies) : Prop where
  keys : ∀ name, name ∈ dependencies.map Prod.fst ↔ name ∈ selected
  within : ∀ name, ∀ b ∈ requiredBy dependencies name, b ∈ selected

/-- A component depends on another. -/
def Requires (dependencies : Dependencies) (a b : String) : Prop := b ∈ requiredBy dependencies a

theorem requiredBy_of_notMem {dependencies : Dependencies} {name : String}
    (hn : name ∉ dependencies.map Prod.fst) : requiredBy dependencies name = [] := by
  have hnone : dependencies.lookup name = none := by
    rw [List.lookup_eq_none_iff]
    intro e he
    simpa using fun heq : name = e.1 => hn (heq ▸ List.mem_map_of_mem he)
  rw [requiredBy, hnone]
  rfl

/-- The dependencies of a composition are such. -/
theorem normalised_normalizeDependencies {T : TemplateSettings} {c : TemplateCatalog}
    {selected : List String} {document : Document} {dependencies : Dependencies}
    (hnd : selected.Nodup) (h : normalizeDependencies T c selected document = .ok dependencies) :
    Normalised selected dependencies := by
  obtain ⟨ts, rfl, -, hwithin, -⟩ := normalizeDependencies_ok h
  have hkeys := keys_dependenciesOf selected ts
  refine ⟨fun name => hkeys.mem_iff, fun name b hb => ?_⟩
  have hname : name ∈ selected := by
    by_contra hn
    rw [requiredBy_of_notMem fun h => hn (hkeys.mem_iff.mp h)] at hb
    cases hb
  obtain ⟨t, ht, hab⟩ := List.mem_map.mp ((requiredBy_dependenciesOf hnd hname b).mp hb)
  cases hab
  exact (hwithin t ht).2

/-- What `visit` raises when it is in itself too often. -/
def recursionError : Exc := exc .runtimeError "maximum recursion depth exceeded"

variable {T : TemplateSettings} {selected : List String} {dependencies : Dependencies}

theorem search_normalised (h : Normalised selected dependencies) :
    (search (requiredBy dependencies) T.depth selected = .spent ∧ T.depth ≤ selected.length) ∨
      (search (requiredBy dependencies) T.depth selected = .cycle ∧
        ¬ Acyclic (Requires dependencies)) ∨
      ∃ s, search (requiredBy dependencies) T.depth selected = .done s ∧
        Acyclic (Requires dependencies) :=
  search_spec (fun a _ => h.within a) fun a ha =>
    requiredBy_of_notMem fun hk => ha ((h.keys a).mp hk)

/-- The search comes to an end.  It says what is so, or there were as many components as calls that
may be one in another. -/
theorem assertAcyclic_cases (h : Normalised selected dependencies) :
    (assertAcyclic T selected dependencies = .ok () ∧ Acyclic (Requires dependencies)) ∨
      (assertAcyclic T selected dependencies =
        templateError "Component dependencies contain a cycle" ∧
        ¬ Acyclic (Requires dependencies)) ∨
      (assertAcyclic T selected dependencies = .error recursionError ∧
        T.depth ≤ selected.length) := by
  rcases search_normalised (T := T) h with ⟨hs, hd⟩ | ⟨hs, hc⟩ | ⟨s, hs, hc⟩
  · exact .inr (.inr ⟨by rw [assertAcyclic, hs]; rfl, hd⟩)
  · exact .inr (.inl ⟨by rw [assertAcyclic, hs], hc⟩)
  · exact .inl ⟨by rw [assertAcyclic, hs], hc⟩

/-- The search accepts what has no cycle and no way that is too deep for it. -/
theorem assertAcyclic_iff (h : Normalised selected dependencies) :
    assertAcyclic T selected dependencies = .ok () ↔ Acyclic (Requires dependencies) ∧
      ¬ Nests (requiredBy dependencies) T.depth selected ∅ := by
  constructor
  · intro hok
    rcases assertAcyclic_cases (T := T) h with ⟨-, hc⟩ | ⟨e, -⟩ | ⟨e, -⟩
    · refine ⟨hc, fun hdeep => ?_⟩
      rw [assertAcyclic, (search_spent hc).mpr hdeep] at hok
      cases hok
    · rw [e] at hok
      cases hok
    · rw [e] at hok
      cases hok
  · rintro ⟨hc, hdeep⟩
    rcases search_normalised (T := T) h with ⟨hs, -⟩ | ⟨-, hn⟩ | ⟨s, hs, -⟩
    · exact absurd ((search_spent hc).mp hs) hdeep
    · exact absurd hc hn
    · rw [assertAcyclic, hs]

/-- An error is raised exactly where the dependencies have a cycle. -/
def RaisesOnCycles (T : TemplateSettings) (selected : List String) (dependencies : Dependencies) :
    Prop :=
  (∃ e, assertAcyclic T selected dependencies = .error e) ↔ ¬ Acyclic (Requires dependencies)

theorem assertAcyclic_error (h : Normalised selected dependencies) :
    (∃ e, assertAcyclic T selected dependencies = .error e) ↔
      ¬ assertAcyclic T selected dependencies = .ok () := by
  rcases assertAcyclic_cases (T := T) h with ⟨e, -⟩ | ⟨e, -⟩ | ⟨e, -⟩ <;> simp [e, templateError]

/-- There is no cycle, but a way too deep for the search, to no part of which it finds another one
first. -/
def TooDeep (T : TemplateSettings) (selected : List String) (dependencies : Dependencies) : Prop :=
  Acyclic (Requires dependencies) ∧ Nests (requiredBy dependencies) T.depth selected ∅

theorem raisesOnCycles_iff (h : Normalised selected dependencies) :
    RaisesOnCycles T selected dependencies ↔ ¬ TooDeep T selected dependencies := by
  rw [RaisesOnCycles, assertAcyclic_error h, assertAcyclic_iff h, TooDeep]
  tauto

/-- A way through the components is no longer than the longest one. -/
theorem not_tooDeep_of_chains (h : Normalised selected dependencies)
    (hlong : ∀ p : List String, p ⊆ selected → p.IsChain (Requires dependencies) →
      p.length ≤ T.depth) : ¬ TooDeep T selected dependencies := by
  rintro ⟨-, hdeep⟩
  obtain ⟨a, ha, p, hp, hchain⟩ := hdeep.chain
  have hsub : ∀ (p : List String) (a : String), a ∈ selected →
      (a :: p).IsChain (Requires dependencies) → a :: p ⊆ selected := by
    intro p
    induction p with
    | nil => exact fun a ha _ => List.cons_subset.mpr ⟨ha, List.nil_subset _⟩
    | cons b p ih =>
        intro a ha hchain
        obtain ⟨hab, hchain⟩ := List.isChain_cons_cons.mp hchain
        exact List.cons_subset.mpr ⟨ha, ih b (h.within a b hab) hchain⟩
  have := hlong (a :: p) (hsub p a ha hchain) hchain
  rw [List.length_cons, hp] at this
  omega

open DockerSwarmAdapter in
/-- A document is refused for its dependencies exactly where one of them is no service or the
graph has a cycle; otherwise there is an order that puts dependencies first and does not depend on
how the document is written.  The templates reject the same graphs but for those without a cycle
that have a way too deep for the recursion of the search, before which it comes to nothing that
leads into it. -/
theorem deployment_order {U : DockerUtils} {compose : Document} {requireImages : Bool}
    {services : Services} (hs : composeServices compose = .ok services)
    (hnd : (services.map Prod.fst).Nodup)
    (hdecl : ∀ s ∈ services, WellDeclared (field s.2 "depends_on")) :
    (Sound services → validateCompose U compose requireImages =
      validateCompose U (withoutDependencies compose) requireImages) ∧
    (¬ Sound services → validateCompose U compose requireImages ≠ .ok () ∧
      (validateCompose U (withoutDependencies compose) requireImages = .ok () →
        ∃ e, validateCompose U compose requireImages = .error e ∧ DependencyError e)) ∧
    (∀ n, services.length ≤ n →
      orderRounds n (waitingOf services) = deploymentOrder services) ∧
    ((∃ order, deploymentOrder services = .ok order) ↔ Sound services) ∧
    (∀ order, deploymentOrder services = .ok order →
      order.Perm (services.map Prod.fst) ∧ Follows (DependsOn services) order ∧
      ∀ services', Reordered services services' → deploymentOrder services' = .ok order) ∧
    (∀ (T : TemplateSettings) c selected document dependencies, selected.Nodup →
      normalizeDependencies T c selected document = .ok dependencies →
      Normalised selected dependencies) ∧
    ∀ (T : TemplateSettings) selected dependencies, Normalised selected dependencies →
      (assertAcyclic T selected dependencies = .ok () ∧ Acyclic (Requires dependencies) ∨
        assertAcyclic T selected dependencies =
          templateError "Component dependencies contain a cycle" ∧
          ¬ Acyclic (Requires dependencies) ∨
        assertAcyclic T selected dependencies = .error recursionError ∧
          T.depth ≤ selected.length) ∧
      (RaisesOnCycles T selected dependencies ↔ ¬ TooDeep T selected dependencies) ∧
      ((∀ p : List String, p ⊆ selected → p.IsChain (Requires dependencies) →
        p.length ≤ T.depth) → RaisesOnCycles T selected dependencies) ∧
      ((∀ name, name ∈ selected ↔ name ∈ services.map Prod.fst) →
        (∀ a b, Requires dependencies a b ↔ DependsOn services a b) →
        ((assertAcyclic T selected dependencies = .ok () ↔
          ∃ order, deploymentOrder services = .ok order) ↔
          ¬ TooDeep T selected dependencies)) := by
  have hother := @validateCompose_bare U compose requireImages _ hs hnd
  refine ⟨fun h => ?_, fun h => ?_, fun n hn => ?_, deploymentOrder_iff hnd hdecl,
    fun order ho => ⟨deploymentOrder_perm hnd ho, deploymentOrder_follows hnd hdecl ho,
      fun services' hr => (deploymentOrder_reordered hdecl hr).trans ho⟩,
    fun T c selected document dependencies => normalised_normalizeDependencies,
    fun T selected dependencies hnorm => ⟨assertAcyclic_cases hnorm, raisesOnCycles_iff hnorm,
      fun hlong => (raisesOnCycles_iff hnorm).mpr (not_tooDeep_of_chains hnorm hlong),
      fun hkeys hedges => ?_⟩⟩
  · rw [hother]
    exact validateCompose_sound hs hnd hdecl h
  · rw [hother]
    exact validateCompose_unsound hs hnd hdecl h
  · rw [deploymentOrder_eq hdecl]
    have hlen : (waitingOf services).length = services.length := by
      rw [waitingOf, List.length_map]
    exact orderRounds_fuel (by rw [hlen]; exact hn) hlen.le
  · -- The two sides look at the same graph.
    have hsound : Sound services ↔ Acyclic (Requires dependencies) :=
      ⟨fun h => h.acyclic.mono fun a b hab => (hedges a b).mp hab,
        fun h => ⟨fun a b hab => (hkeys b).mp (hnorm.within a b ((hedges a b).mpr hab)),
          h.mono fun a b hab => (hedges a b).mpr hab⟩⟩
    rw [assertAcyclic_iff hnorm, deploymentOrder_iff hnd hdecl, hsound, TooDeep]
    tauto

/-- Three services, one of which needs the others. -/
def layered : Document := .map [(.str "services", .map [
  (.str "web", .map [(.str "image", .str "app:1"),
    (.str "depends_on", .list [.str "db", .str "cache"])]),
  (.str "cache", .map [(.str "image", .str "app:1"),
    (.str "depends_on", .map [(.str "db", .null)])]),
  (.str "db", .map [(.str "image", .str "app:1")])])]

def layeredServices : DockerSwarmAdapter.Services := [
  ("web", [(.str "image", .str "app:1"), (.str "depends_on", .list [.str "db", .str "cache"])]),
  ("cache", [(.str "image", .str "app:1"), (.str "depends_on", .map [(.str "db", .null)])]),
  ("db", [(.str "image", .str "app:1")])]

theorem wellDeclared_layered : ∀ s ∈ layeredServices,
    DockerSwarmAdapter.WellDeclared (field s.2 "depends_on") := by
  intro s hs
  simp only [layeredServices, List.mem_cons, List.not_mem_nil, or_false] at hs
  rcases hs with rfl | rfl | rfl
  · exact @DockerSwarmAdapter.WellDeclared.list ["db", "cache"] (by decide)
  · exact @DockerSwarmAdapter.WellDeclared.map [("db", .null)] (by simp [Document.isBare])
  · exact .none

/-- The same, of components. -/
def layeredDependencies : Dependencies :=
  [("cache", [("db", none)]), ("db", []), ("web", [("cache", none), ("db", none)])]

theorem normalised_layered : Normalised ["cache", "db", "web"] layeredDependencies where
  keys _ := .rfl
  within name b hb := by
    by_cases hname : name ∈ layeredDependencies.map Prod.fst
    · revert b
      revert name
      decide
    · rw [requiredBy_of_notMem hname] at hb
      cases hb

open DockerSwarmAdapter in
theorem deployment_order_layered :
    ["db", "cache", "web"].Perm (layeredServices.map Prod.fst) ∧
      Follows (DependsOn layeredServices) ["db", "cache", "web"] ∧
      RaisesOnCycles templateSettings ["cache", "db", "web"] layeredDependencies := by
  have h := @deployment_order Sample.swarm.utils layered true layeredServices (by rfl) (by decide)
    wellDeclared_layered
  have ho : deploymentOrder layeredServices = .ok ["db", "cache", "web"] := by decide
  obtain ⟨hperm, hfollows, -⟩ := h.2.2.2.2.1 _ ho
  obtain ⟨hcases, -⟩ := h.2.2.2.2.2.2 templateSettings _ _ normalised_layered
  have hok : assertAcyclic templateSettings ["cache", "db", "web"] layeredDependencies = .ok () := by
    decide
  refine ⟨hperm, hfollows, ?_⟩
  rcases hcases with ⟨-, hc⟩ | ⟨e, -⟩ | ⟨e, -⟩
  · rw [RaisesOnCycles, hok]
    constructor
    · rintro ⟨e, he⟩
      cases he
    · exact fun hn => absurd hc hn
  · rw [hok] at e
    cases e
  · rw [hok] at e
    cases e

/-! ### A long chain -/

/-- Each component needs the next one. -/
def chainOf : List String → Dependencies
  | [] => []
  | a :: l => (a, l.head?.toList.map fun b => (b, none)) :: chainOf l

theorem keys_chainOf (l : List String) : (chainOf l).map Prod.fst = l := by
  induction l with
  | nil => rfl
  | cons a l ih => rw [chainOf, List.map_cons, ih]

theorem requiredBy_chainOf {pre post : List String} {a : String} (h : (pre ++ a :: post).Nodup) :
    requiredBy (chainOf (pre ++ a :: post)) a = post.head?.toList := by
  induction pre with
  | nil =>
      rw [List.nil_append, chainOf, requiredBy, List.lookup_cons_self, Option.getD_some,
        List.map_map]
      exact List.map_id _
  | cons x pre ih =>
      rw [List.cons_append, List.nodup_cons] at h
      have hx : (a == x) = false := by
        refine beq_eq_false_iff_ne.mpr fun e => h.1 ?_
        rw [← e]
        simp
      have hskip : requiredBy (chainOf (x :: (pre ++ a :: post))) a =
          requiredBy (chainOf (pre ++ a :: post)) a := by
        rw [chainOf, requiredBy, List.lookup_cons, hx]
        rfl
      rw [List.cons_append, hskip, ih h.2]

theorem requiredBy_chainOf_cases {l : List String} (h : l.Nodup) {a b : String}
    (hab : b ∈ requiredBy (chainOf l) a) : ∃ pre post, l = pre ++ a :: b :: post := by
  by_cases ha : a ∈ l
  · obtain ⟨pre, post, rfl⟩ := List.append_of_mem ha
    rw [requiredBy_chainOf h] at hab
    cases post with
    | nil => cases hab
    | cons c post =>
        rw [List.head?_cons, Option.toList_some, List.mem_singleton] at hab
        exact ⟨pre, post, by rw [hab]⟩
  · rw [requiredBy_of_notMem (by rwa [keys_chainOf])] at hab
    cases hab

theorem normalised_chainOf {l : List String} (h : l.Nodup) : Normalised l (chainOf l) where
  keys name := by rw [keys_chainOf]
  within name b hb := by
    obtain ⟨pre, post, rfl⟩ := requiredBy_chainOf_cases h hb
    simp

theorem acyclic_chainOf {l : List String} (h : l.Nodup) : Acyclic (Requires (chainOf l)) := by
  refine @Follows.acyclic _ _ l.reverse (fun before a after hl b hb => ?_) fun a b hab => ?_
  · have hl : l = after.reverse ++ a :: before.reverse := by
      rw [← List.reverse_reverse l, hl]
      simp
    rw [Requires, hl, requiredBy_chainOf (hl ▸ h)] at hb
    refine List.mem_reverse.mp (List.mem_of_mem_head? ?_)
    simpa using hb
  · obtain ⟨pre, post, rfl⟩ := requiredBy_chainOf_cases h hab
    simp

theorem nests_chainOf {l : List String} (h : l.Nodup) (n : Nat) :
    ∀ pre a post, l = pre ++ a :: post → n ≤ post.length →
      Nests (requiredBy (chainOf l)) n [a] ∅ := by
  induction n with
  | zero => exact fun pre a post _ _ => List.cons_ne_nil a []
  | succ n ih =>
      intro pre a post hl hn
      cases post with
      | nil => cases hn
      | cons b post =>
          refine ⟨[], a, [], rfl, Set.notMem_empty a, by simp [Reached], ?_⟩
          rw [reached_nil, Set.union_empty, hl, requiredBy_chainOf (hl ▸ h), ← hl]
          exact ih (pre ++ [a]) b post (by rw [hl]; simp) (Nat.le_of_succ_le_succ hn)

/-- A chain of more components than calls may be one in another has no cycle and is refused. -/
theorem not_raisesOnCycles_chainOf {a : String} {l : List String} (h : (a :: l).Nodup)
    (hl : T.depth ≤ l.length) : ¬ RaisesOnCycles T (a :: l) (chainOf (a :: l)) := by
  rw [raisesOnCycles_iff (normalised_chainOf h)]
  intro hok
  refine hok ⟨acyclic_chainOf h, ?_⟩
  have hone := nests_chainOf h T.depth [] a l rfl hl
  revert hone
  cases T.depth with
  | zero => exact fun _ => List.cons_ne_nil a l
  | succ n => exact fun hone => nests_cons.mpr (.inl ((nests_cons.mp hone).resolve_right (by
      rintro ⟨before, x, after, hnil, -⟩
      simp at hnil)))

/-- `c1000` to `c2000`, each of which needs the next. -/
def numbered : List String := (List.range 1001).map fun i => "c" ++ toString (1000 + i)

theorem nodup_numbered : numbered.Nodup := by
  refine List.nodup_range.map fun i j h => ?_
  have := toString_injective (String.append_right_inj _ |>.mp h)
  omega

/-- Their search is too deep for the interpreter. -/
theorem deployment_order_deep :
    ¬ ∀ selected dependencies, Normalised selected dependencies →
      RaisesOnCycles templateSettings selected dependencies := by
  intro h
  have hlen : numbered.length = 1001 := by simp [numbered]
  obtain ⟨a, l, hcons⟩ := List.exists_cons_of_length_eq_add_one hlen
  have hnd := nodup_numbered
  have hraises := h numbered (chainOf numbered) (normalised_chainOf hnd)
  rw [hcons] at hraises hnd hlen
  exact not_raisesOnCycles_chainOf hnd (Nat.succ_inj.mp hlen).ge hraises

end Orchestrator.Templates.TemplateCatalog
