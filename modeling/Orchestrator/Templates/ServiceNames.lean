import Orchestrator.Docker.BoundedNames
import Orchestrator.Docker.Ordering
import Orchestrator.Templates.Reordering

/-!
# Templates — the names of the services

The services of a composed document, beside the components that were asked for.

* `Requested`: the dependencies that the input asks for.
* `Mirrors`: a document has a service for each component, and the same graph.
* `foldlM_addService`, `renderService_dependencies`: how the services come about.
* `compose_mirrors`: exactly where no name is another one's shortened name.
-/

namespace Orchestrator.Templates.TemplateCatalog
open Graphs DockerSwarmAdapter

variable {T : TemplateSettings} {c : TemplateCatalog} {selected : List String}

/-! ### The request -/

/-- A list of dependencies, or a mapping with them as keys, names one. -/
inductive Names : Document → String → Prop
  | list {items : List Document} {d : String} (h : .str d ∈ items) : Names (.list items) d
  | map {entries : Fields} {d : String} (h : .str d ∈ entries.map Prod.fst) :
      Names (.map entries) d

/-- The dependencies name `b` among those of `a`. -/
def Requested (T : TemplateSettings) (c : TemplateCatalog) (dependencies : Document)
    (a b : String) : Prop :=
  ∃ entries, dependencies = .map entries ∧ ∃ e ∈ entries, ∃ name d, e.1 = .str name ∧
    Names e.2 d ∧ canonicalComponent T c name = a ∧ canonicalComponent T c d = b

theorem entryItems_ok {e : Key × Document} {xs : List (String × Document × Document)}
    (h : entryItems T c selected e = .ok xs) :
    ∃ name items, e.1 = .str name ∧ canonicalComponent T c name ∈ selected ∧
      dependencyItems e.2 = .ok items ∧
      xs = items.map fun item => (canonicalComponent T c name, item) := by
  obtain ⟨k, d⟩ := e
  unfold entryItems at h
  cases k with
  | other t => cases h
  | str name =>
      dsimp only at h
      by_cases hin : canonicalComponent T c name ∉ selected
      · rw [if_pos hin] at h
        cases h
      · rw [if_neg hin] at h
        cases hd : dependencyItems d with
        | error y => rw [hd] at h; cases h
        | ok items =>
            rw [hd] at h
            exact ⟨name, items, rfl, not_not.mp hin, rfl, (Except.ok.inj h).symm⟩

theorem itemTriple_ok {x : String × Document × Document} {t : Triple}
    (h : itemTriple T c selected x = .ok t) :
    ∃ d, x.2.1 = .str d ∧ t.1 = x.1 ∧ t.2.1 = canonicalComponent T c d := by
  unfold itemTriple at h
  split at h
  · next d hd =>
      dsimp only at h
      split at h
      · cases h
      · cases hc : normalizeDependencyConfig x.2.2 with
        | error y => rw [hc] at h; cases h
        | ok config =>
            rw [hc] at h
            obtain rfl := Except.ok.inj h
            exact ⟨d, hd, rfl, rfl⟩
  · cases h

/-- The texts among the items are what the document names. -/
theorem dependencyItems_names {d : Document} {items : List (Document × Document)}
    (h : dependencyItems d = .ok items) (name : String) :
    (∃ item ∈ items, item.1 = .str name) ↔ Names d name := by
  cases d with
  | list l =>
      cases h
      constructor
      · rintro ⟨item, hi, he⟩
        obtain ⟨x, hx, rfl⟩ := List.mem_map.mp hi
        exact .list (he ▸ hx)
      · intro hn
        cases hn with
        | list hm => exact ⟨_, List.mem_map_of_mem hm, rfl⟩
  | map entries =>
      cases h
      constructor
      · rintro ⟨item, hi, he⟩
        obtain ⟨⟨k, x⟩, hx, rfl⟩ := List.mem_map.mp hi
        cases k with
        | other t => cases he
        | str s =>
            cases he
            exact .map (List.mem_map_of_mem (f := Prod.fst) hx)
      · intro hn
        cases hn with
        | map hm =>
            obtain ⟨⟨k, x⟩, hx, rfl⟩ := List.mem_map.mp hm
            exact ⟨_, List.mem_map_of_mem hx, rfl⟩
  | null => cases h
  | bool b => cases h
  | int n => cases h
  | float x => cases h
  | str s => cases h
  | other t b n => cases h

theorem dependencyTriples_requested {entries : Fields} {ts : List Triple}
    (h : dependencyTriples T c selected entries = .ok ts) (a b : String) :
    (a, b) ∈ ts.map (fun t => (t.1, t.2.1)) ↔ Requested T c (.map entries) a b := by
  obtain ⟨xss, hxss, hts⟩ := bind_ok h
  have hxss := mapM_ok hxss
  have hts := mapM_ok hts
  constructor
  · intro hab
    obtain ⟨t, ht, he⟩ := List.mem_map.mp hab
    cases he
    obtain ⟨x, hx, hxt⟩ := forall₂_mem_right hts ht
    obtain ⟨d, hd, ht₁, ht₂⟩ := itemTriple_ok hxt
    obtain ⟨xs, hxs, hxm⟩ := List.mem_flatten.mp hx
    obtain ⟨e, he, hexs⟩ := forall₂_mem_right hxss hxs
    obtain ⟨name, items, hkey, -, hitems, rfl⟩ := entryItems_ok hexs
    obtain ⟨item, hi, rfl⟩ := List.mem_map.mp hxm
    exact ⟨entries, rfl, e, he, name, d, hkey, (dependencyItems_names hitems d).mp ⟨item, hi, hd⟩,
      ht₁.symm, ht₂.symm⟩
  · rintro ⟨entries', heq, e, he, name, d, hkey, hnames, rfl, rfl⟩
    cases heq
    obtain ⟨xs, hxs, hexs⟩ := forall₂_mem_left hxss he
    obtain ⟨name', items, hkey', -, hitems, rfl⟩ := entryItems_ok hexs
    cases hkey.symm.trans hkey'
    obtain ⟨item, hi, hd⟩ := (dependencyItems_names hitems d).mpr hnames
    have hx := List.mem_flatten.mpr ⟨_, hxs, List.mem_map_of_mem
      (f := fun item => (canonicalComponent T c name, item)) hi⟩
    obtain ⟨t, ht, hxt⟩ := forall₂_mem_left hts hx
    obtain ⟨d', hd', ht₁, ht₂⟩ := itemTriple_ok hxt
    cases hd.symm.trans hd'
    exact List.mem_map.mpr ⟨t, ht, Prod.ext ht₁ ht₂⟩

theorem normalizeEntries_ok {entries : Fields} {normalized : Dependencies}
    (h : normalizeEntries T c selected entries = .ok normalized) :
    ∃ ts, normalized = dependenciesOf selected ts ∧ Distinct ts ∧
      (∀ t ∈ ts, t.1 ∈ selected ∧ t.2.1 ∈ selected) ∧
      ∀ a b, (a, b) ∈ ts.map (fun t => (t.1, t.2.1)) ↔ Requested T c (.map entries) a b := by
  have houtcome := @normalizeEntries_outcome T c selected entries
  rw [h] at houtcome
  cases hts : dependencyTriples T c selected entries with
  | error e => rw [hts] at houtcome; cases houtcome
  | ok ts =>
      rw [hts] at houtcome
      change Outcomes _ _ (if ¬ Distinct ts then templateError "" else .ok ts) at houtcome
      by_cases hd : Distinct ts
      · rw [if_neg (not_not.mpr hd)] at houtcome
        cases houtcome with
        | ok h => exact ⟨ts, h.1, h.2.1, h.2.2, dependencyTriples_requested hts⟩
      · rw [if_pos hd] at houtcome
        cases houtcome

theorem requested_nil (a b : String) : ¬ Requested T c (.map []) a b := by
  rintro ⟨entries, h, e, he, -⟩
  cases h
  cases he

theorem normalizeDependencies_ok {dependencies : Document} {normalized : Dependencies}
    (h : normalizeDependencies T c selected dependencies = .ok normalized) :
    ∃ ts, normalized = dependenciesOf selected ts ∧ Distinct ts ∧
      (∀ t ∈ ts, t.1 ∈ selected ∧ t.2.1 ∈ selected) ∧
      ∀ a b, (a, b) ∈ ts.map (fun t => (t.1, t.2.1)) ↔ Requested T c dependencies a b := by
  cases dependencies with
  | map entries => exact normalizeEntries_ok h
  | null =>
      obtain ⟨ts, hn, hd, hs, hr⟩ :=
        normalizeEntries_ok (show normalizeEntries T c selected [] = .ok normalized from h)
      refine ⟨ts, hn, hd, hs, fun a b => (hr a b).trans ⟨fun hab => ?_, fun hab => ?_⟩⟩
      · exact absurd hab (requested_nil a b)
      · obtain ⟨entries, he, -⟩ := hab
        cases he
  | bool b => cases h
  | int n => cases h
  | float x => cases h
  | str s => cases h
  | list l => cases h
  | other t b n => cases h

theorem keys_dependenciesOf (selected : List String) (ts : List Triple) :
    ((dependenciesOf selected ts).map Prod.fst).Perm selected := by
  refine ((Mapping.perm_sortKeys _).map Prod.fst).trans ?_
  rw [List.map_map]
  exact .of_eq (List.map_id selected)

/-- A component requires what the input names. -/
theorem requiredBy_dependenciesOf {ts : List Triple} (hnd : selected.Nodup) {a : String}
    (ha : a ∈ selected) (b : String) :
    b ∈ requiredBy (dependenciesOf selected ts) a ↔ (a, b) ∈ ts.map fun t => (t.1, t.2.1) := by
  have hkeys := keys_dependenciesOf selected ts
  have hlookup : (dependenciesOf selected ts).lookup a =
      some (Mapping.sortKeys (ofComponent ts a)) := by
    rw [Mapping.lookup_eq_some_iff (hkeys.nodup_iff.mpr hnd)]
    exact (Mapping.perm_sortKeys _).symm.subset (List.mem_map_of_mem ha)
  rw [requiredBy, hlookup, Option.getD_some, ← mem_ofComponent]
  exact ((Mapping.perm_sortKeys _).map Prod.fst).mem_iff

/-! ### The services -/

/-- The services of a document, as its field. -/
def asServices (l : Services) : Fields := l.map entryOf

theorem lookup_str_cons (key key' : String) (value : Document) (d : Fields) :
    ((.str key', value) :: d : Fields).lookup (.str key) =
      if key = key' then some value else d.lookup (.str key) := by
  rw [List.lookup_cons]
  by_cases h : key = key'
  · rw [if_pos h, h, beq_self_eq_true]
  · rw [if_neg h, beq_false_of_ne fun e => h (Key.str.inj e)]

theorem hasField_asServices {l : Services} {name : String} :
    hasField (asServices l) name = true ↔ name ∈ l.map Prod.fst := by
  induction l with
  | nil => simp [hasField, asServices]
  | cons e l ih =>
      rw [hasField, asServices, List.map_cons, entryOf, lookup_str_cons, List.map_cons,
        List.mem_cons, ← ih]
      by_cases h : name = e.1
      · simp [h]
      · rw [if_neg h, or_iff_right h]
        rfl

theorem setField_asServices (l : Services) (name : String) (d : Fields) :
    setField (asServices l) name (.map d) = asServices (Mapping.assign l name d) := by
  rw [setField, Mapping.assign]
  by_cases h : name ∈ l.map Prod.fst
  · rw [if_pos (hasField_asServices.mpr h), if_pos h, asServices, asServices, List.map_map,
      List.map_map]
    refine List.map_congr_left fun e _ => ?_
    by_cases he : e.1 = name
    · simp [entryOf, he]
    · simp [entryOf, he]
  · rw [if_neg (fun hf => h (hasField_asServices.mp hf)), if_neg h, asServices, asServices,
      List.map_append]
    rfl

/-- The definition of the service of a component. -/
def Rendered (T : TemplateSettings) (c : TemplateCatalog) (R : Rendering) (name : String)
    (d : Fields) : Prop :=
  ∃ component declared, c.components.lookup name = some component ∧
    renderService T c R name component = .ok (d, declared)

theorem addService_ok {R : Rendering} {l : Services} {volumes : Fields} {name : String}
    {state : Fields × Fields} (h : addService T c R (asServices l, volumes) name = .ok state) :
    ∃ d, Rendered T c R name d ∧
      state.1 = asServices (Mapping.assign l (R.names T name) d) := by
  unfold addService at h
  split at h
  · cases h
  · next component hcomponent =>
      obtain ⟨⟨d, declared⟩, hd, h⟩ := bind_ok h
      cases h
      exact ⟨d, ⟨component, declared, hcomponent, hd⟩, setField_asServices l _ d⟩

/-- Each component adds its service, or puts it in the place of one of the same name. -/
theorem foldlM_addService {R : Rendering} {state : Fields × Fields} {l : Services}
    {volumes : Fields}
    (h : selected.foldlM (addService T c R) (asServices l, volumes) = .ok state) :
    ∃ added : Services, List.Forall₂ (fun name e => e.1 = R.names T name ∧
      Rendered T c R name e.2) selected added ∧
      state.1 = asServices (Mapping.update l added) := by
  induction selected generalizing l volumes with
  | nil =>
      cases h
      exact ⟨[], .nil, rfl⟩
  | cons name selected ih =>
      rw [List.foldlM_cons] at h
      obtain ⟨⟨services, volumes'⟩, hadd, h⟩ := bind_ok h
      obtain ⟨d, hd, hs⟩ := addService_ok hadd
      dsimp only at hs
      rw [hs] at h
      obtain ⟨added, hall, hstate⟩ := ih h
      exact ⟨(R.names T name, d) :: added, .cons ⟨rfl, hd⟩ hall, hstate⟩

/-! ### Their dependencies -/

theorem mem_keys_setField {d : Fields} {key : String} {value : Document} {k : Key} :
    k ∈ (setField d key value).map Prod.fst ↔ k = .str key ∨ k ∈ d.map Prod.fst := by
  unfold setField
  split
  · next h =>
      have hkeys : (d.map fun e => if e.1 = .str key then (e.1, value) else e).map Prod.fst =
          d.map Prod.fst := by
        rw [List.map_map]
        refine List.map_congr_left fun e _ => ?_
        rw [Function.comp_apply]
        split
        · rfl
        · rfl
      rw [hkeys]
      constructor
      · exact .inr
      · rintro (rfl | hk)
        · obtain ⟨x, hx⟩ := Option.isSome_iff_exists.mp h
          obtain ⟨before, after, rfl, -⟩ := List.lookup_eq_some_iff.mp hx
          simp
        · exact hk
  · rw [List.map_append, List.mem_append, or_comm]
    simp

theorem foldlM_renderDependency {name : String} {names : String → String}
    {l : List (String × DependencyConfig)} {rendered entries : Fields}
    (h : l.foldlM (renderDependency c name names) rendered = .ok entries) (k : Key) :
    k ∈ entries.map Prod.fst ↔
      k ∈ rendered.map Prod.fst ∨ k ∈ l.map fun e => .str (names e.1) := by
  induction l generalizing rendered with
  | nil =>
      cases h
      simp
  | cons e l ih =>
      rw [List.foldlM_cons] at h
      obtain ⟨next, hnext, h⟩ := bind_ok h
      have hset : ∃ config, next = setField rendered (names e.1) config := by
        unfold renderDependency at hnext
        generalize e.2.getD _ = config at hnext
        dsimp only at hnext
        split at hnext
        · cases hnext
        · exact ⟨_, (Except.ok.inj hnext).symm⟩
      obtain ⟨config, rfl⟩ := hset
      rw [ih h, mem_keys_setField, List.map_cons, List.mem_cons]
      tauto

/-- The names under `depends_on` are those of the services of the dependencies. -/
theorem renderDependencies_names {name : String} {l : List (String × DependencyConfig)}
    {names : String → String} {conditions : Bool} {rendered : Option Document}
    (h : renderDependencies c name l names conditions = .ok rendered) (x : String) :
    x ∈ namesOf (rendered.getD .null) ↔ x ∈ l.map fun e => names e.1 := by
  unfold renderDependencies at h
  split at h
  · next hl =>
      cases h
      rw [List.isEmpty_iff.mp hl]
      exact Iff.rfl
  · split at h
    · cases h
      have := namesOf_list (l.map fun e => names e.1)
      rw [List.map_map] at this
      rw [Option.getD_some, show (fun e : String × DependencyConfig => Document.str (names e.1)) =
        Document.str ∘ fun e => names e.1 from rfl, this]
    · obtain ⟨entries, he, h⟩ := bind_ok h
      cases h
      have hkeys := foldlM_renderDependency he
      rw [Option.getD_some, namesOf]
      constructor
      · intro hx
        obtain ⟨e, hm, rfl⟩ := List.mem_map.mp hx
        have hk := (hkeys e.1).mp (List.mem_map_of_mem hm)
        rw [List.map_nil, or_iff_right List.not_mem_nil] at hk
        obtain ⟨e', hm', he'⟩ := List.mem_map.mp hk
        rw [← he']
        exact List.mem_map_of_mem (f := fun e => names e.1) hm'
      · intro hx
        obtain ⟨e, hm, rfl⟩ := List.mem_map.mp hx
        obtain ⟨e', hm', he'⟩ := List.mem_map.mp ((hkeys (.str (names e.1))).mpr
          (.inr (List.mem_map_of_mem (f := fun e => Key.str (names e.1)) hm)))
        exact List.mem_map.mpr ⟨e', hm', by rw [he']; rfl⟩

theorem lookup_optionalField (key key' : String) (value : Option Document) :
    (optionalField key value).lookup (.str key') = if key' = key then value else none := by
  cases value with
  | none => simp [optionalField]
  | some value =>
      rw [optionalField, List.lookup_cons]
      by_cases h : key' = key
      · rw [if_pos h, h, beq_self_eq_true]
      · rw [if_neg h, beq_false_of_ne fun e => h (Key.str.inj e), List.lookup_nil]

theorem renderService_dependencies {R : Rendering} {name : String} {component : Component}
    {d declared : Fields} (h : renderService T c R name component = .ok (d, declared)) (x : String) :
    x ∈ namesOf (field d "depends_on") ↔ x ∈ (requiredBy R.dependencies name).map (R.names T) := by
  unfold renderService at h
  obtain ⟨⟨mounts, volumes⟩, -, h⟩ := bind_ok h
  obtain ⟨rendered, hr, h⟩ := bind_ok h
  have hfield : field d "depends_on" = rendered.getD .null := by
    obtain ⟨rfl, -⟩ := Prod.mk.inj (Except.ok.inj h)
    rw [field]
    congr 1
    simp [List.lookup_append, lookup_optionalField, lookup_str_cons]
  rw [requiredBy, List.map_map (g := R.names T), hfield]
  exact renderDependencies_names hr x

/-! ### The document -/

/-- The services are one for each component, and depend on each other as the components do. -/
structure Mirrors (services : Services) (components : List String)
    (requires : String → String → Prop) (name : String → String) : Prop where
  count : services.length = components.length
  bijective : Set.BijOn name {a | a ∈ components} {x | x ∈ services.map Prod.fst}
  edges : ∀ a ∈ components, ∀ b ∈ components,
    DependsOn services (name a) (name b) ↔ requires a b
  asked : ∀ a b, requires a b → a ∈ components ∧ b ∈ components
  within : ∀ x y, DependsOn services x y →
    x ∈ services.map Prod.fst ∧ y ∈ services.map Prod.fst

theorem Mirrors.perm {services : Services} {components components' : List String}
    {requires : String → String → Prop} {name : String → String}
    (h : Mirrors services components requires name) (hp : components.Perm components') :
    Mirrors services components' requires name := by
  have hmem : ∀ a, a ∈ components' ↔ a ∈ components := fun a => hp.mem_iff.symm
  refine ⟨h.count.trans hp.length_eq, ?_, ?_, ?_, h.within⟩
  · simp only [hmem]
    exact h.bijective
  · simp only [hmem]
    exact h.edges
  · simp only [hmem]
    exact h.asked

/-- What an accepted composition went through. -/
theorem compose_ok {components dependencies environment single several document : Document}
    {appid : Option String} {conditions : Bool}
    (h : compose T c components dependencies appid environment single several conditions =
      .ok document) :
    ∃ selected ns R state, validateSelection T c components = .ok selected ∧
      validateNamespace appid = .ok ns ∧ R.ns = ns ∧
      normalizeDependencies T c selected dependencies = .ok R.dependencies ∧
      selected.foldlM (addService T c R) ([], []) = .ok state ∧
      document = composeDocument (ns.map fun ns => boundedResourceName T.sha256 ns) state.1
        state.2 := by
  obtain ⟨selected, hselected, h⟩ := bind_ok h
  obtain ⟨ns, hns, h⟩ := bind_ok h
  obtain ⟨globalEnvironment, -, h⟩ := bind_ok h
  obtain ⟨overrides, -, h⟩ := bind_ok h
  obtain ⟨normalized, hnormalized, h⟩ := bind_ok h
  obtain ⟨-, -, h⟩ := bind_ok h
  obtain ⟨state, hstate, h⟩ := bind_ok h
  obtain ⟨-, -, h⟩ := bind_ok h
  exact ⟨selected, ns, ⟨appid, ns, globalEnvironment, overrides, normalized, conditions⟩, state,
    hselected, hns, rfl, hnormalized, hstate, (Except.ok.inj h).symm⟩

theorem texts_eq_some {items : List Document} {names : List String}
    (h : DockerSwarmAdapter.texts items = some names) : items = names.map .str := by
  induction items generalizing names with
  | nil => cases h; rfl
  | cons d items ih =>
      rw [texts_cons] at h
      split at h
      · next s rest hrest =>
          cases h
          rw [ih hrest]
          rfl
      · cases h

theorem validateSelection_ok {components : Document}
    (h : validateSelection T c components = .ok selected) :
    ∃ names, components = .list (names.map .str) ∧ names ≠ [] ∧
      (names.map (canonicalComponent T c)).Nodup ∧
      selected.Perm (names.map (canonicalComponent T c)) ∧
      ∀ a ∈ selected, a ∈ c.components.map Prod.fst := by
  unfold validateSelection at h
  split at h
  · next item items =>
      split at h
      · cases h
      · next names htexts =>
          dsimp only at h
          by_cases hnd : ¬ (names.map (canonicalComponent T c)).Nodup
          · rw [if_pos hnd] at h
            cases h
          rw [if_neg hnd] at h
          split at h
          · next hunknown =>
              have hnames := texts_eq_some htexts
              have hperm : selected.Perm (names.map (canonicalComponent T c)) := by
                rw [← Except.ok.inj h]
                exact List.perm_insertionSort _ _
              refine ⟨names, congrArg _ hnames, ?_, not_not.mp hnd, hperm, fun a ha => ?_⟩
              · rintro rfl
                cases hnames
              · obtain ⟨name, hname, rfl⟩ := List.mem_map.mp (hperm.subset ha)
                by_contra hnot
                have := List.isEmpty_iff.mp hunknown
                rw [List.filter_eq_nil_iff] at this
                exact this name hname (decide_eq_true hnot)
          · cases h
  · cases h

theorem composeServices_composeDocument {l : Services} (h : l ≠ [])
    (resourceNamespace : Option String) (volumes : Fields) :
    composeServices (composeDocument resourceNamespace (asServices l) volumes) = .ok l := by
  refine composeServices_iff.mpr ⟨?_, h⟩
  simp [List.lookup_append, lookup_optionalField, lookup_str_cons, asServices]

/-- Where the components have different names, each has its service and its dependencies. -/
theorem mirrors_of_injOn {R : Rendering} {added : Services} {requires : String → String → Prop}
    (hnd : selected.Nodup) (hinj : Set.InjOn (R.names T) {a | a ∈ selected})
    (hadded : List.Forall₂ (fun name e => e.1 = R.names T name ∧ Rendered T c R name e.2)
      selected added)
    (hrequires : ∀ a ∈ selected, ∀ b, b ∈ requiredBy R.dependencies a ↔ requires a b)
    (hasked : ∀ a b, requires a b → a ∈ selected ∧ b ∈ selected) :
    Mirrors (Mapping.update [] added) selected requires (R.names T) := by
  have hkeys : added.map Prod.fst = selected.map (R.names T) := by
    rw [← List.forall₂_eq_eq_eq, List.forall₂_map_left_iff, List.forall₂_map_right_iff]
    exact hadded.flip.imp fun e name h => h.1
  have hkeysnd : (added.map Prod.fst).Nodup := by
    rw [hkeys]
    exact hnd.map_on fun a ha b hb e => hinj ha hb e
  have hupdate : Mapping.update [] added = added := by
    rw [Mapping.update_eq_append (by simpa using hkeysnd), List.nil_append]
  have hmem : ∀ x, x ∈ added.map Prod.fst ↔ ∃ a ∈ selected, R.names T a = x := by
    intro x
    rw [hkeys, List.mem_map]
  -- an edge between services comes from the component that the service is of
  have hedge : ∀ x y, DependsOn added x y ↔
      ∃ a ∈ selected, R.names T a = x ∧ ∃ b, requires a b ∧ R.names T b = y := by
    intro x y
    have hrendered : ∀ a ∈ selected, ∀ d, Rendered T c R a d →
        (y ∈ namesOf (field d "depends_on") ↔ ∃ b, requires a b ∧ R.names T b = y) := by
      rintro a ha d ⟨component, declared, -, hd⟩
      rw [renderService_dependencies hd, List.mem_map]
      simp only [hrequires a ha]
    constructor
    · rintro ⟨e, he, rfl, hy⟩
      obtain ⟨a, ha, hname, hd⟩ := forall₂_mem_right hadded he
      exact ⟨a, ha, hname.symm, (hrendered a ha _ hd).mp hy⟩
    · rintro ⟨a, ha, rfl, hb⟩
      obtain ⟨e, he, hname, hd⟩ := forall₂_mem_left hadded ha
      exact ⟨e, he, hname, (hrendered a ha _ hd).mpr hb⟩
  rw [hupdate]
  refine ⟨hadded.length_eq.symm, ⟨?_, hinj, ?_⟩, ?_, hasked, ?_⟩
  · exact fun a ha => (hmem _).mpr ⟨a, ha, rfl⟩
  · exact fun x hx => (hmem x).mp hx
  · intro a ha b hb
    rw [hedge]
    constructor
    · rintro ⟨a', ha', ea, b', hab, eb⟩
      obtain rfl := hinj ha' ha ea
      obtain rfl := hinj (hasked _ _ hab).2 hb eb
      exact hab
    · exact fun hab => ⟨a, ha, rfl, b, hab, rfl⟩
  · intro x y hxy
    obtain ⟨a, ha, hx, b, hab, hy⟩ := (hedge x y).mp hxy
    exact ⟨(hmem x).mpr ⟨a, ha, hx⟩, (hmem y).mpr ⟨b, (hasked a b hab).2, hy⟩⟩

/-- The service of `a` has the name that is kept for it, and it is what the name of the service of
`b` is shortened to. -/
def Shadows (T : TemplateSettings) (ns : Option String) (a b : String) : Prop :=
  ∃ n, ns = some n ∧ Spells T.sha256 (rawName n (some a)) (rawName n (some b)) (rawName n (some b))

theorem rawName_injective (n : String) {a b : String}
    (h : rawName n (some a) = rawName n (some b)) : a = b := by
  have h := congrArg String.toList h
  simp only [rawName, String.toList_append] at h
  exact String.toList_inj.mp (List.append_cancel_left h)

/-- The names of the services are different exactly where none shadows another. -/
theorem injOn_serviceName {ns : Option String} (hdigest : ∀ n, ns = some n →
      ∀ a ∈ selected, ∀ b ∈ selected, a ≠ b → T.sha256.short 10 (rawName n (some a)) ≠
        T.sha256.short 10 (rawName n (some b))) :
    Set.InjOn (fun a => serviceName T a ns) {a | a ∈ selected} ↔
      ∀ a ∈ selected, ∀ b ∈ selected, ¬ Shadows T ns a b := by
  cases ns with
  | none =>
      refine iff_of_true (fun a _ b _ e => e) fun a _ b _ h => ?_
      obtain ⟨n, hn, -⟩ := h
      cases hn
  | some n =>
      have hiff : ∀ a ∈ selected, ∀ b ∈ selected, a ≠ b →
          (serviceName T a (some n) = serviceName T b (some n) ↔
            Shadows T (some n) a b ∨ Shadows T (some n) b a) := by
        intro a ha b hb hne
        have hraw : rawName n (some a) ≠ rawName n (some b) := fun e => hne (rawName_injective n e)
        rw [serviceName, serviceName, boundedResourceName_eq, boundedResourceName_eq,
          bounded_eq_iff (fun _ => hdigest n rfl a ha b hb hne) hraw]
        constructor
        · rintro (h | h | ⟨-, -, h, -⟩)
          · exact .inl ⟨n, rfl, h⟩
          · exact .inr ⟨n, rfl, h⟩
          · exact absurd h hraw
        · rintro (⟨m, hm, h⟩ | ⟨m, hm, h⟩)
          · cases hm
            exact .inl h
          · cases hm
            exact .inr (.inl h)
      constructor
      · intro hinj a ha b hb h
        have hne : a ≠ b := by
          rintro rfl
          obtain ⟨m, -, hle, hlt, -⟩ := h
          exact absurd hle (Nat.not_le.mpr hlt)
        exact hne (hinj ha hb ((hiff a ha b hb hne).mpr (.inl h)))
      · intro hshadow a ha b hb e
        by_contra hne
        rcases (hiff a ha b hb hne).mp e with h | h
        · exact hshadow a ha b hb h
        · exact hshadow b hb a ha h

theorem update_nil_ne {added : Services} (h : added ≠ []) : Mapping.update [] added ≠ [] := by
  cases added with
  | nil => exact absurd rfl h
  | cons e added =>
      intro hnil
      have hkey : ∀ (l d : Services), e.1 ∈ d.map Prod.fst →
          e.1 ∈ (Mapping.update d l).map Prod.fst := by
        intro l
        induction l with
        | nil => exact fun d h => h
        | cons x l ih => exact fun d h => ih _ (Mapping.mem_keys_assign.mpr (.inr h))
      have := hkey added (Mapping.assign [] e.1 e.2) (Mapping.mem_keys_assign.mpr (.inl rfl))
      rw [show Mapping.update (Mapping.assign [] e.1 e.2) added = Mapping.update [] (e :: added)
        from rfl, hnil] at this
      cases this

/-- A composed document has the services that were asked for, with the dependencies between them,
exactly where no component is named so that its service has the shortened name of another one,
where the digests of different names differ. -/
theorem compose_mirrors (T : TemplateSettings) (c : TemplateCatalog)
    {components dependencies environment single several document : Document}
    {appid : Option String} {conditions : Bool}
    (h : compose T c components dependencies appid environment single several conditions =
      .ok document)
    (hdigest : ∀ n, validateNamespace appid = .ok (some n) →
      ∀ a ∈ c.components.map Prod.fst, ∀ b ∈ c.components.map Prod.fst, a ≠ b →
        T.sha256.short 10 (rawName n (some a)) ≠ T.sha256.short 10 (rawName n (some b))) :
    ∃ (names : List String) (ns : Option String) (services : Services),
      components = .list (names.map .str) ∧ validateNamespace appid = .ok ns ∧
      composeServices document = .ok services ∧
      (Mirrors services (names.map (canonicalComponent T c)) (Requested T c dependencies)
          (fun a => serviceName T a ns) ↔
        ∀ a ∈ names.map (canonicalComponent T c), ∀ b ∈ names.map (canonicalComponent T c),
          ¬ Shadows T ns a b) := by
  obtain ⟨selected, ns, R, state, hselected, hns, hR, hnormalized, hstate, rfl⟩ := compose_ok h
  obtain ⟨names, hcomponents, hne, hnd, hperm, hknown⟩ := validateSelection_ok hselected
  obtain ⟨added, hadded, hservices⟩ := foldlM_addService (l := []) hstate
  obtain ⟨ts, hts, -, hwithin, hrequested⟩ := normalizeDependencies_ok hnormalized
  have hselnd := hperm.nodup_iff.mpr hnd
  have haddedne : added ≠ [] := by
    rintro rfl
    have := hperm.length_eq
    rw [hadded.length_eq, List.length_map] at this
    exact hne (List.length_eq_zero_iff.mp this.symm)
  have hmem : ∀ a, a ∈ names.map (canonicalComponent T c) ↔ a ∈ selected :=
    fun a => hperm.mem_iff.symm
  subst hR
  refine ⟨names, R.ns, Mapping.update [] added, hcomponents, hns, ?_, ?_⟩
  · rw [hservices]
    exact composeServices_composeDocument (update_nil_ne haddedne) _ _
  · -- Two names are the same exactly where a component shadows another.
    have hinj := @injOn_serviceName T selected R.ns
      fun n hn a ha b hb hab => hdigest n (hn ▸ hns) a (hknown a ha) b (hknown b hb) hab
    simp only [hmem]
    rw [← hinj]
    constructor
    · intro hm
      exact (hm.perm hperm.symm).bijective.injOn
    · intro hinj
      refine (mirrors_of_injOn hselnd hinj hadded (fun a ha b => ?_) fun a b hab => ?_).perm hperm
      · rw [hts, requiredBy_dependenciesOf hselnd ha, hrequested]
      · obtain ⟨t, ht, he⟩ := List.mem_map.mp ((hrequested a b).mpr hab)
        cases he
        exact hwithin t ht

/-! ### A service that is lost -/

/-- A component of 60 letters, and one named after the shortened name of its service. -/
def longComponent : String := "bbbbbbbbbbbbbbbbbbbbbbbbbbbbbbbbbbbbbbbbbbbbbbbbbbbbbbbbbbbb"

def spellingComponent : String := "bbbbbbbbbbbbbbbbbbbbbbbbbbbbbbbbbbbbbbbbbbbbbbb-b4c560c624"

def spellingCatalog : TemplateCatalog :=
  ⟨[(longComponent, plainComponent), (spellingComponent, plainComponent)], []⟩

theorem reachable_spelling : Reachable templateSettings spellingCatalog :=
  @Reachable.load templateSettings ⟨[], []⟩ _
    [(longComponent, plainDocument), (spellingComponent, plainDocument)] rfl

theorem compose_loses_service :
    ¬ ∀ (T : TemplateSettings) (c : TemplateCatalog) (names : List String) (appid ns : String)
        (document : Document) (services : Services), Reachable T c →
      compose T c (.list (names.map .str)) .null (some appid) .null .null .null false =
        .ok document →
      validateNamespace (some appid) = .ok (some ns) →
      (∀ a ∈ c.components.map Prod.fst, ∀ b ∈ c.components.map Prod.fst, a ≠ b →
        T.sha256.short 10 (rawName ns (some a)) ≠ T.sha256.short 10 (rawName ns (some b))) →
      composeServices document = .ok services → services.length = names.length := by
  intro h
  have hcount : ((compose templateSettings spellingCatalog
      (.list ([longComponent, spellingComponent].map .str)) .null (some "demo") .null .null .null
      false).toOption.bind fun d => (composeServices d).toOption.map List.length) = some 1 := by
    decide +kernel
  obtain ⟨document, hdocument, hcount⟩ := Option.bind_eq_some_iff.mp hcount
  obtain ⟨services, hservices, hlength⟩ := Option.map_eq_some_iff.mp hcount
  have hdocument := toOption_eq_some.mp hdocument
  have hservices := toOption_eq_some.mp hservices
  have := h templateSettings spellingCatalog _ "demo" "demo" document services reachable_spelling
    hdocument (by decide +kernel) (by decide +kernel) hservices
  rw [hlength] at this
  cases this

theorem compose_mirrors_pair :
    ∃ services, Mirrors services ["api", "db"]
      (Requested templateSettings pairCatalog (.map [(.str "api", .list [.str "db"])]))
      (fun a => serviceName templateSettings a (some "demo")) := by
  have haccepted : (compose templateSettings pairCatalog (.list [.str "api", .str "db"])
      (.map [(.str "api", .list [.str "db"])]) (some "demo") .null .null .null
      false).toOption.isSome := by decide +kernel
  obtain ⟨document, hdocument⟩ := Option.isSome_iff_exists.mp haccepted
  obtain ⟨names, ns, services, hnames, hns, hservices, hiff⟩ :=
    compose_mirrors templateSettings pairCatalog (toOption_eq_some.mp hdocument) (by
      intro n hn
      rw [show validateNamespace (some "demo") = .ok (some "demo") by decide +kernel] at hn
      cases hn
      decide +kernel)
  obtain rfl : names = ["api", "db"] := by
    have := congrArg DockerSwarmAdapter.texts (Document.list.inj hnames)
    rw [texts_map] at this
    exact (Option.some.inj this).symm
  rw [show validateNamespace (some "demo") = .ok (some "demo") by decide +kernel] at hns
  cases hns
  refine ⟨services, hiff.mpr ?_⟩
  intro a ha b hb hs
  obtain ⟨n, hn, -, hlt, -⟩ := hs
  cases hn
  revert b
  decide +kernel

end Orchestrator.Templates.TemplateCatalog
