import Orchestrator.Models.Outcomes
import Orchestrator.Templates.Composition
import Orchestrator.Text.Sha256

/-!
# Templates — the order of the input

`compose` makes the same document of its arguments, in whatever order they are written.

* `PermutedList`, `PermutedEntries`, `PermutedDependencies`: what may be permuted.
* `normalizeDependencies_outcome`: the dependencies, as one list of triples: none twice, and each
  component with its own, sorted.
* `compose_reordered`.
-/

namespace Orchestrator.Templates.TemplateCatalog

variable {T : TemplateSettings} {c : TemplateCatalog}

/-! ### Permutations -/

/-- A list, permuted. -/
inductive PermutedList : Document → Document → Prop
  | same (d : Document) : PermutedList d d
  | list {items items' : List Document} (h : items.Perm items') :
      PermutedList (.list items) (.list items')

/-- A mapping, whose entries are permuted. -/
inductive PermutedEntries : Document → Document → Prop
  | same (d : Document) : PermutedEntries d d
  | map {entries entries' : Fields} (hnd : (entries.map Prod.fst).Nodup)
      (h : entries.Perm entries') : PermutedEntries (.map entries) (.map entries')

/-- The dependencies of one component, permuted: a list or a mapping. -/
inductive PermutedItems : Document → Document → Prop
  | same (d : Document) : PermutedItems d d
  | list {items items' : List Document} (h : items.Perm items') :
      PermutedItems (.list items) (.list items')
  | map {entries entries' : Fields} (h : entries.Perm entries') :
      PermutedItems (.map entries) (.map entries')

/-- The entries of the dependencies are permuted, and so are those of each entry. -/
inductive PermutedDependencies : Document → Document → Prop
  | same (d : Document) : PermutedDependencies d d
  | map {entries mid entries' : Fields} (h : entries.Perm mid)
      (hitems : List.Forall₂ (fun e f => e.1 = f.1 ∧ PermutedItems e.2 f.2) mid entries') :
      PermutedDependencies (.map entries) (.map entries')

/-! ### The selection -/

theorem texts_cons (d : Document) (l : List Document) : DockerSwarmAdapter.texts (d :: l) =
    match d, DockerSwarmAdapter.texts l with
    | .str s, some names => some (s :: names)
    | _, _ => none := by
  rw [DockerSwarmAdapter.texts, List.mapM_cons]
  cases d with
  | str s => cases hl : DockerSwarmAdapter.texts l with
    | none => rw [DockerSwarmAdapter.texts] at hl; rw [hl]; rfl
    | some names => rw [DockerSwarmAdapter.texts] at hl; rw [hl]; rfl
  | null => rfl
  | bool b => rfl
  | int n => rfl
  | float x => rfl
  | list l => rfl
  | map l => rfl
  | other t b n => rfl

theorem texts_perm {items items' : List Document} (h : items.Perm items') :
    (DockerSwarmAdapter.texts items = none ∧ DockerSwarmAdapter.texts items' = none) ∨
      ∃ names names', DockerSwarmAdapter.texts items = some names ∧
        DockerSwarmAdapter.texts items' = some names' ∧ names.Perm names' := by
  induction h with
  | nil => exact .inr ⟨[], [], rfl, rfl, .nil⟩
  | @cons d l l' _ ih =>
      rw [texts_cons, texts_cons]
      rcases ih with ⟨h, h'⟩ | ⟨names, names', h, h', hp⟩
      · rw [h, h']
        exact .inl ⟨by cases d <;> rfl, by cases d <;> rfl⟩
      · rw [h, h']
        cases d with
        | str s => exact .inr ⟨_, _, rfl, rfl, hp.cons s⟩
        | null => exact .inl ⟨rfl, rfl⟩
        | bool b => exact .inl ⟨rfl, rfl⟩
        | int n => exact .inl ⟨rfl, rfl⟩
        | float x => exact .inl ⟨rfl, rfl⟩
        | list l => exact .inl ⟨rfl, rfl⟩
        | map l => exact .inl ⟨rfl, rfl⟩
        | other t b n => exact .inl ⟨rfl, rfl⟩
  | swap d e l =>
      rw [texts_cons, texts_cons, texts_cons, texts_cons]
      cases DockerSwarmAdapter.texts l with
      | none => exact .inl ⟨by cases e <;> cases d <;> rfl, by cases d <;> cases e <;> rfl⟩
      | some names =>
          cases d with
          | str s => cases e with
            | str t => exact .inr ⟨_, _, rfl, rfl, .swap s t names⟩
            | _ => exact .inl ⟨rfl, rfl⟩
          | _ => cases e with
            | str t => exact .inl ⟨rfl, rfl⟩
            | _ => exact .inl ⟨rfl, rfl⟩
  | trans _ _ ih ih' =>
      rcases ih with ⟨h, hm⟩ | ⟨names, mid, h, hm, hp⟩
      · rcases ih' with ⟨-, h'⟩ | ⟨mid, names', hm', -, -⟩
        · exact .inl ⟨h, h'⟩
        · cases hm.symm.trans hm'
      · rcases ih' with ⟨hm', -⟩ | ⟨mid', names', hm', h', hp'⟩
        · cases hm.symm.trans hm'
        · obtain rfl := Option.some.inj (hm.symm.trans hm')
          exact .inr ⟨_, _, h, h', hp.trans hp'⟩

theorem sort_perm {l l' : List String} (h : l.Perm l') :
    l.insertionSort (· ≤ ·) = l'.insertionSort (· ≤ ·) :=
  List.Perm.eq_of_pairwise' (r := (· ≤ ·)) (List.pairwise_insertionSort _ _)
    (List.pairwise_insertionSort _ _)
    ((List.perm_insertionSort _ _).trans (h.trans (List.perm_insertionSort _ _).symm))

theorem validateSelection_perm {components components' : Document}
    (h : PermutedList components components') :
    Outcomes Eq (validateSelection T c components) (validateSelection T c components') := by
  cases h with
  | same d => exact .refl _
  | @list items items' h =>
      cases items with
      | nil => rw [List.nil_perm.mp h]; exact .refl _
      | cons d l =>
          cases items' with
          | nil => exact absurd h.symm (List.nil_perm.not.mpr (List.cons_ne_nil d l))
          | cons d' l' =>
              rw [validateSelection, validateSelection]
              rcases texts_perm h with ⟨h₁, h₂⟩ | ⟨names, names', h₁, h₂, hp⟩
              · rw [h₁, h₂]
                exact .error _ _
              · rw [h₁, h₂]
                dsimp only
                have hsel := hp.map (canonicalComponent T c)
                refine .ite (not_congr hsel.nodup_iff) fun _ => ?_
                have hempty : (names.filter fun name => decide (canonicalComponent T c name ∉
                    c.components.map Prod.fst)).isEmpty =
                    (names'.filter fun name => decide (canonicalComponent T c name ∉
                      c.components.map Prod.fst)).isEmpty := by
                  rw [Bool.eq_iff_iff, List.isEmpty_iff_length_eq_zero,
                    List.isEmpty_iff_length_eq_zero, (hp.filter _).length_eq]
                rw [hempty]
                split
                · exact .ok (sort_perm hsel)
                · exact .error _ _

/-! ### The environment -/

theorem environmentEntry_key {label : String} {e : Key × Document} {x : String × String}
    (h : environmentEntry label e = .ok x) : e.1 = .str x.1 := by
  obtain ⟨k, d⟩ := e
  unfold environmentEntry at h
  split at h
  · cases h
  · cases h
  · next key hkey =>
      split at h
      · cases h
        cases k with
        | str s => exact congrArg Key.str (Option.some.inj hkey)
        | other t => cases hkey
      · cases h

theorem foldlM_assign (xs d : List (String × String)) :
    xs.foldlM (fun d x => (.ok (Mapping.assign d x.1 x.2) : Except Exc _)) d =
      .ok (Mapping.update d xs) := by
  induction xs generalizing d with
  | nil => rfl
  | cons x xs ih => exact ih _

/-- The normalised environment: its entries, checked and sorted. -/
theorem normalizeEnvironment_outcome {label : String} {entries : Fields}
    (hnd : (entries.map Prod.fst).Nodup) :
    Outcomes (fun d xs => d = Mapping.sortKeys xs ∧ (xs.map Prod.fst).Nodup)
      (normalizeEnvironment label (.map entries)) (entries.mapM (environmentEntry label)) := by
  have hfold : Outcomes Eq (entries.foldlM (normalizeEntry label) [])
      (entries.mapM (environmentEntry label) >>= fun xs => .ok (Mapping.update [] xs)) := by
    have hstep : normalizeEntry label = fun d e =>
        environmentEntry label e >>= fun x => .ok (Mapping.assign d x.1 x.2) := rfl
    have h := foldlM_check (f := environmentEntry label)
      (g := fun d x => (.ok (Mapping.assign d x.1 x.2) : Except Exc (List (String × String))))
      entries []
    rw [hstep]
    simp only [foldlM_assign] at h
    exact h
  rw [normalizeEnvironment]
  cases hm : entries.mapM (environmentEntry label) with
  | error e =>
      rw [hm] at hfold
      cases hf : entries.foldlM (normalizeEntry label) [] with
      | error e' => exact .error e' e
      | ok d => rw [hf] at hfold; cases hfold
  | ok xs =>
      rw [hm] at hfold
      have hkeys : entries.map Prod.fst = xs.map fun x => Key.str x.1 := by
        rw [← List.forall₂_eq_eq_eq, List.forall₂_map_left_iff, List.forall₂_map_right_iff]
        exact (mapM_ok hm).imp fun e x h => environmentEntry_key h
      have hx : (xs.map Prod.fst).Nodup := by
        rw [hkeys] at hnd
        exact List.Nodup.of_map Key.str (by rw [List.map_map]; exact hnd)
      cases hf : entries.foldlM (normalizeEntry label) [] with
      | error e => rw [hf] at hfold; cases hfold
      | ok d =>
          rw [hf] at hfold
          cases hfold with
          | ok h =>
              rw [Mapping.update_eq_append (by simpa using hx)] at h
              exact .ok ⟨by rw [h]; rfl, hx⟩

theorem normalizeEnvironment_perm {label : String} {environment environment' : Document}
    (h : PermutedEntries environment environment') :
    Outcomes Eq (normalizeEnvironment label environment)
      (normalizeEnvironment label environment') := by
  cases h with
  | same d => exact .refl _
  | @map entries entries' hnd h =>
      have h₁ := @normalizeEnvironment_outcome label _ hnd
      have h₂ := @normalizeEnvironment_outcome label _ ((h.map Prod.fst).nodup_iff.mp hnd)
      have hm := mapM_perm (f := environmentEntry label) h
      refine ((h₁.trans hm).trans h₂.flip).mono ?_
      rintro d d' ⟨ys, ⟨xs, ⟨hd, hxs⟩, hp⟩, hd', -⟩
      rw [hd, hd']
      exact Mapping.sortKeys_congr hxs hp

/-! ### The dependencies -/

/-- A component, one that it depends on, and how. -/
abbrev Triple := String × String × DependencyConfig

/-- The items of one entry, each with the component they are of. -/
def entryItems (T : TemplateSettings) (c : TemplateCatalog) (selected : List String)
    (e : Key × Document) : Except Exc (List (String × Document × Document)) :=
  match e.1 with
  | .other _ => templateError "Dependencies must reference selected components"
  | .str name =>
      let name := canonicalComponent T c name
      if name ∉ selected then templateError "Dependencies must reference selected components"
      else (dependencyItems e.2).map (List.map fun item => (name, item))

/-- The checks of an item that need nothing of the others. -/
def itemTriple (T : TemplateSettings) (c : TemplateCatalog) (selected : List String)
    (x : String × Document × Document) : Except Exc Triple :=
  match x.2.1 with
  | .str dependency =>
      let dependency := canonicalComponent T c dependency
      if dependency ∉ selected then
        templateError "Dependencies must reference selected components"
      else (normalizeDependencyConfig x.2.2).map fun config => (x.1, dependency, config)
  | _ => templateError "Dependencies must reference selected components"

/-- A triple is added to the dependencies, if it is new. -/
def addTriple (normalized : Dependencies) (t : Triple) : Except Exc Dependencies :=
  if t.2.1 ∈ ((normalized.lookup t.1).getD []).map Prod.fst then
    templateError "Duplicate dependencies are not allowed"
  else .ok (normalized.map fun e => if e.1 = t.1 then (e.1, e.2 ++ [t.2]) else e)

variable {selected : List String}

theorem dependencyItem_outcome (name : String) (normalized : Dependencies)
    (item : Document × Document) :
    Outcomes Eq (dependencyItem T c selected name normalized item)
      (itemTriple T c selected (name, item) >>= addTriple normalized) := by
  obtain ⟨d, config⟩ := item
  unfold dependencyItem itemTriple
  cases d with
  | str dependency =>
      dsimp only
      by_cases hs : canonicalComponent T c dependency ∉ selected
      · rw [if_pos hs, if_pos hs]
        exact .error _ _
      rw [if_neg hs, if_neg hs]
      cases normalizeDependencyConfig config with
      | error e =>
          split
          · exact .error _ _
          · exact .error _ _
      | ok config =>
          show Outcomes Eq _ (addTriple normalized (name, canonicalComponent T c dependency, config))
          rw [addTriple]
          split
          · exact .error _ _
          · exact .refl _
  | null => exact .error _ _
  | bool b => exact .error _ _
  | int n => exact .error _ _
  | float x => exact .error _ _
  | list l => exact .error _ _
  | map l => exact .error _ _
  | other t b n => exact .error _ _

theorem dependencyEntry_eq (normalized : Dependencies) (e : Key × Document) :
    dependencyEntry T c selected normalized e =
      entryItems T c selected e >>= fun xs =>
        xs.foldlM (fun d x => dependencyItem T c selected x.1 d x.2) normalized := by
  obtain ⟨k, d⟩ := e
  unfold dependencyEntry entryItems
  cases k with
  | other t => rfl
  | str name =>
      dsimp only
      split
      · rfl
      · cases dependencyItems d with
        | error e => rfl
        | ok items =>
            show items.foldlM _ normalized = (items.map _).foldlM _ normalized
            rw [List.foldlM_map]

/-- The triples of the dependencies. -/
def dependencyTriples (T : TemplateSettings) (c : TemplateCatalog) (selected : List String)
    (entries : Fields) : Except Exc (List Triple) :=
  entries.mapM (entryItems T c selected) >>= fun xss => xss.flatten.mapM (itemTriple T c selected)

theorem foldlM_outcome {σ α : Type} {f g : σ → α → Except Exc σ}
    (h : ∀ s a, Outcomes Eq (f s a) (g s a)) (l : List α) (s : σ) :
    Outcomes Eq (l.foldlM f s) (l.foldlM g s) := by
  induction l generalizing s with
  | nil => exact .refl _
  | cons a l ih =>
      rw [List.foldlM_cons, List.foldlM_cons]
      exact (h s a).bind fun t t' ht => ht ▸ ih t

/-- The loops over the entries and over their items are one loop over the triples. -/
theorem foldlM_dependencyEntry (entries : Fields) (normalized : Dependencies) :
    Outcomes Eq (entries.foldlM (dependencyEntry T c selected) normalized)
      (dependencyTriples T c selected entries >>= fun ts => ts.foldlM addTriple normalized) := by
  have hentry : dependencyEntry T c selected = fun d e => entryItems T c selected e >>= fun xs =>
      xs.foldlM (fun d x => dependencyItem T c selected x.1 d x.2) d := by
    funext d e
    exact dependencyEntry_eq d e
  rw [hentry]
  have h₁ := foldlM_check (f := entryItems T c selected)
    (g := fun d xs => xs.foldlM (fun d x => dependencyItem T c selected x.1 d x.2) d)
    entries normalized
  have h₂ : ∀ xss : List (List (String × Document × Document)), Outcomes Eq
      (xss.foldlM (fun d xs => xs.foldlM (fun d x => dependencyItem T c selected x.1 d x.2) d)
        normalized)
      (xss.flatten.mapM (itemTriple T c selected) >>= fun ts => ts.foldlM addTriple normalized) := by
    intro xss
    rw [← foldlM_flatten]
    have h₃ := foldlM_outcome (fun d x => @dependencyItem_outcome T c selected x.1 d
      x.2) xss.flatten normalized
    exact (h₃.trans (foldlM_check (f := itemTriple T c selected) (g := addTriple) xss.flatten
      normalized)).mono fun a b ⟨x, hx, hb⟩ => hx.trans hb
  rw [dependencyTriples]
  cases hm : entries.mapM (entryItems T c selected) with
  | error e => rw [hm] at h₁; exact h₁
  | ok xss =>
      rw [hm] at h₁
      exact (h₁.trans (h₂ xss)).mono fun a b ⟨x, hx, hb⟩ => hx.trans hb

/-! ### The loop over the triples -/

/-- The dependencies of a component among the triples. -/
def ofComponent (ts : List Triple) (name : String) : List (String × DependencyConfig) :=
  (ts.filter fun t => t.1 == name).map Prod.snd

/-- The selected components, each with what `d` says of it. -/
def tabulate (selected : List String) (d : String → List (String × DependencyConfig)) :
    Dependencies := selected.map fun name => (name, d name)

theorem lookup_tabulate {d : String → List (String × DependencyConfig)} {name : String}
    (h : name ∈ selected) : (tabulate selected d).lookup name = some (d name) :=
  Mapping.lookup_map_self h

/-- No component names another one twice. -/
def Distinct (ts : List Triple) : Prop := (ts.map fun t => (t.1, t.2.1)).Nodup

instance (ts : List Triple) : Decidable (Distinct ts) := inferInstanceAs (Decidable (List.Nodup _))

theorem Distinct.ofComponent {ts : List Triple} (h : Distinct ts) (name : String) :
    ((ofComponent ts name).map Prod.fst).Nodup := by
  rw [TemplateCatalog.ofComponent, List.map_map]
  have hsub := h.sublist ((List.filter_sublist (l := ts) (p := fun t => t.1 == name)).map
    fun t : Triple => (t.1, t.2.1))
  refine List.Nodup.of_map (fun b => (name, b)) ?_
  rw [List.map_map]
  refine (List.map_congr_left fun t ht => ?_).symm ▸ hsub
  have := (List.mem_filter.mp ht).2
  exact Prod.ext (beq_iff_eq.mp this).symm rfl

theorem mem_ofComponent {ts : List Triple} {name dependency : String} :
    dependency ∈ (ofComponent ts name).map Prod.fst ↔
      (name, dependency) ∈ ts.map fun t => (t.1, t.2.1) := by
  rw [ofComponent, List.map_map, List.mem_map, List.mem_map]
  constructor
  · rintro ⟨t, ht, rfl⟩
    obtain ⟨ht, hname⟩ := List.mem_filter.mp ht
    exact ⟨t, ht, Prod.ext (beq_iff_eq.mp hname) rfl⟩
  · rintro ⟨t, ht, he⟩
    obtain ⟨rfl, rfl⟩ := Prod.mk.inj he
    exact ⟨t, List.mem_filter.mpr ⟨ht, beq_self_eq_true t.1⟩, rfl⟩

theorem ofComponent_snoc (ts : List Triple) (t : Triple) (name : String) :
    ofComponent (ts ++ [t]) name =
      if name = t.1 then ofComponent ts name ++ [t.2] else ofComponent ts name := by
  rw [ofComponent, List.filter_append, List.map_append, ← ofComponent]
  by_cases h : name = t.1
  · rw [if_pos h, List.filter_cons, if_pos (beq_iff_eq.mpr h.symm)]
    rfl
  · rw [if_neg h, List.filter_cons, if_neg (by simpa using fun e => h e.symm)]
    exact List.append_nil _

/-- The loop over the triples, from what it has so far. -/
theorem foldlM_addTriple {ts : List Triple} : ∀ {done : List Triple},
    (∀ t ∈ ts, t.1 ∈ selected) → Distinct done →
    Outcomes (fun d ts' => d = tabulate selected (ofComponent ts'))
      (ts.foldlM addTriple (tabulate selected (ofComponent done)))
      (if ¬ Distinct (done ++ ts) then templateError "" else .ok (done ++ ts)) := by
  induction ts with
  | nil =>
      intro done _ hdone
      rw [List.append_nil, if_neg (not_not.mpr hdone)]
      exact .ok rfl
  | cons t ts ih =>
      intro done hts hdone
      rw [List.foldlM_cons, addTriple, lookup_tabulate (hts t List.mem_cons_self), Option.getD_some]
      by_cases hdup : t.2.1 ∈ (ofComponent done t.1).map Prod.fst
      · rw [if_pos hdup, if_pos]
        · exact .error _ _
        · intro h
          rw [Distinct, List.map_append, List.map_cons] at h
          exact List.disjoint_of_nodup_append h (mem_ofComponent.mp hdup) List.mem_cons_self
      · have hdone' : Distinct (done ++ [t]) := by
          rw [Distinct, List.map_append]
          refine List.nodup_append.mpr ⟨hdone, List.nodup_singleton _, fun x hx y hy e => ?_⟩
          rw [List.map_singleton, List.mem_singleton] at hy
          exact hdup (mem_ofComponent.mpr (hy ▸ e ▸ hx))
        have hnext : (tabulate selected (ofComponent done)).map (fun e =>
            if e.1 = t.1 then (e.1, e.2 ++ [t.2]) else e) =
            tabulate selected (ofComponent (done ++ [t])) := by
          rw [tabulate, tabulate, List.map_map]
          refine List.map_congr_left fun name _ => ?_
          rw [Function.comp_apply, ofComponent_snoc]
          split
          · rfl
          · rfl
        have hrest := @ih (done ++ [t]) (fun t ht => hts t (List.mem_cons_of_mem _ ht)) hdone'
        rw [List.append_assoc] at hrest
        rw [if_neg hdup]
        show Outcomes _ (ts.foldlM addTriple _) _
        rw [hnext]
        exact hrest

/-- The names of an entry's items are selected. -/
theorem dependencyTriples_selected {entries : Fields} {ts : List Triple}
    (h : dependencyTriples T c selected entries = .ok ts) :
    ∀ t ∈ ts, t.1 ∈ selected ∧ t.2.1 ∈ selected := by
  obtain ⟨xss, hxss, hts⟩ := bind_ok h
  intro t ht
  obtain ⟨x, hx, he⟩ := forall₂_mem_right (mapM_ok hts) ht
  obtain ⟨xs, hxs, hxm⟩ := List.mem_flatten.mp hx
  obtain ⟨e, -, hee⟩ := forall₂_mem_right (mapM_ok hxss) hxs
  have hname : x.1 ∈ selected := by
    unfold entryItems at hee
    split at hee
    · cases hee
    · dsimp only at hee
      split at hee
      · cases hee
      · next hin =>
          cases hd : dependencyItems e.2 with
          | error y => rw [hd] at hee; cases hee
          | ok items =>
              rw [hd] at hee
              obtain rfl := Except.ok.inj hee
              obtain ⟨item, -, rfl⟩ := List.mem_map.mp hxm
              exact not_not.mp hin
  unfold itemTriple at he
  split at he
  · dsimp only at he
    split at he
    · cases he
    · next hin =>
        cases hd : normalizeDependencyConfig x.2.2 with
        | error y => rw [hd] at he; cases he
        | ok config =>
            rw [hd] at he
            obtain rfl := Except.ok.inj he
            exact ⟨hname, not_not.mp hin⟩
  · cases he

/-- What `_normalize_dependencies` makes of the triples. -/
def dependenciesOf (selected : List String) (ts : List Triple) : Dependencies :=
  Mapping.sortKeys (selected.map fun name => (name, Mapping.sortKeys (ofComponent ts name)))

/-- The dependencies are the triples, if none is there twice. -/
theorem normalizeEntries_outcome (entries : Fields) :
    Outcomes (fun d ts => d = dependenciesOf selected ts ∧ Distinct ts ∧
        ∀ t ∈ ts, t.1 ∈ selected ∧ t.2.1 ∈ selected)
      (normalizeEntries T c selected entries)
      (dependencyTriples T c selected entries >>= fun ts =>
        if ¬ Distinct ts then templateError "" else .ok ts) := by
  have hfold := @foldlM_dependencyEntry T c selected entries
    (selected.map fun name => (name, []))
  rw [normalizeEntries]
  cases hts : dependencyTriples T c selected entries with
  | error e =>
      rw [hts] at hfold
      cases hf : entries.foldlM (dependencyEntry T c selected)
          (selected.map fun name => (name, [])) with
      | error e' => exact .error e' e
      | ok d => rw [hf] at hfold; cases hfold
  | ok ts =>
      rw [hts] at hfold
      have hsel := dependencyTriples_selected hts
      -- The loop adds the triples one by one, and stops at one that is there.
      have hloop := hfold.trans (@foldlM_addTriple selected ts [] (fun t ht => (hsel t ht).1)
        List.nodup_nil)
      rw [List.nil_append] at hloop
      show Outcomes _ _ (if ¬ Distinct ts then templateError "" else Except.ok ts)
      by_cases hdistinct : Distinct ts
      · rw [if_neg (not_not.mpr hdistinct)] at hloop ⊢
        cases hf : entries.foldlM (dependencyEntry T c selected)
            (selected.map fun name => (name, [])) with
        | error e => rw [hf] at hloop; cases hloop
        | ok d =>
            rw [hf] at hloop
            cases hloop with
            | ok h =>
                obtain ⟨d', rfl, rfl⟩ := h
                refine .ok ⟨?_, hdistinct, hsel⟩
                rw [tabulate, List.map_map]
                rfl
      · rw [if_pos hdistinct] at hloop ⊢
        cases hf : entries.foldlM (dependencyEntry T c selected)
            (selected.map fun name => (name, [])) with
        | error e => exact .error _ _
        | ok d => rw [hf] at hloop; cases hloop

theorem dependenciesOf_perm {ts ts' : List Triple} (hdistinct : Distinct ts) (h : ts.Perm ts') :
    dependenciesOf selected ts = dependenciesOf selected ts' := by
  rw [dependenciesOf, dependenciesOf]
  congr 1
  refine List.map_congr_left fun name _ => ?_
  rw [Mapping.sortKeys_congr (hdistinct.ofComponent name) ((h.filter _).map _)]
  rfl

theorem dependencyItems_perm {d d' : Document} (h : PermutedItems d d') :
    Outcomes List.Perm (dependencyItems d) (dependencyItems d') := by
  cases h with
  | same d =>
      cases dependencyItems d with
      | error e => exact .error e e
      | ok items => exact .ok (.refl items)
  | list h => exact .ok (h.map _)
  | map h => exact .ok (h.map _)

theorem entryItems_perm {e f : Key × Document} (hkey : e.1 = f.1) (h : PermutedItems e.2 f.2) :
    Outcomes List.Perm (entryItems T c selected e) (entryItems T c selected f) := by
  unfold entryItems
  rw [hkey]
  cases f.1 with
  | other t => exact .error _ _
  | str name =>
      dsimp only
      split
      · exact .error _ _
      · exact (dependencyItems_perm h).map fun items items' hp => hp.map _

theorem flatten_forall₂ {α : Type} {l l' : List (List α)} (h : List.Forall₂ List.Perm l l') :
    l.flatten.Perm l'.flatten := by
  induction h with
  | nil => exact .nil
  | cons hp _ ih =>
      rw [List.flatten_cons, List.flatten_cons]
      exact hp.append ih

theorem dependencyTriples_perm {entries mid entries' : Fields} (h : entries.Perm mid)
    (hitems : List.Forall₂ (fun e f => e.1 = f.1 ∧ PermutedItems e.2 f.2) mid entries') :
    Outcomes List.Perm (dependencyTriples T c selected entries)
      (dependencyTriples T c selected entries') := by
  have h₁ := mapM_perm (f := entryItems T c selected) h
  have h₂ := mapM_forall₂ (f := entryItems T c selected) (g := entryItems T c selected)
    (fun e f hef => entryItems_perm hef.1 hef.2) hitems
  refine (h₁.trans h₂).bind fun xss xss' hx => ?_
  obtain ⟨m, hp, hf⟩ := hx
  exact mapM_perm ((List.Perm.flatten hp).trans (flatten_forall₂ hf))

theorem normalizeDependencies_perm {dependencies dependencies' : Document}
    (h : PermutedDependencies dependencies dependencies') :
    Outcomes Eq (normalizeDependencies T c selected dependencies)
      (normalizeDependencies T c selected dependencies') := by
  cases h with
  | same d => exact .refl _
  | @map entries mid entries' h hitems =>
      have h₁ := @normalizeEntries_outcome T c selected entries
      have h₂ := @normalizeEntries_outcome T c selected entries'
      have ht : Outcomes List.Perm
          (dependencyTriples T c selected entries >>= fun ts =>
            if ¬ Distinct ts then templateError "" else .ok ts)
          (dependencyTriples T c selected entries' >>= fun ts =>
            if ¬ Distinct ts then templateError "" else .ok ts) :=
        (dependencyTriples_perm h hitems).bind fun ts ts' hp =>
          .ite (not_congr (hp.map _).nodup_iff) fun _ => .ok hp
      refine ((h₁.trans ht).trans h₂.flip).mono ?_
      rintro d d' ⟨ts', ⟨ts, ⟨hd, hdistinct, -⟩, hp⟩, hd', -⟩
      rw [hd, hd']
      exact dependenciesOf_perm hdistinct hp

/-! ### The document -/

/-- Whatever the order of the components, of the dependencies and of the environment: the same
document, or none. -/
theorem compose_reordered (T : TemplateSettings) (c : TemplateCatalog)
    {components components' dependencies dependencies' environment environment' : Document}
    (appid : Option String) (conditions : Bool)
    (hcomponents : PermutedList components components')
    (hdependencies : PermutedDependencies dependencies dependencies')
    (henvironment : PermutedEntries environment environment') :
    (compose T c components dependencies appid environment .null .null conditions).toOption =
      (compose T c components' dependencies' appid environment' .null .null
        conditions).toOption := by
  refine Outcomes.toOption_eq ?_
  unfold compose
  refine (validateSelection_perm hcomponents).bind fun selected _ h => h ▸ ?_
  refine (Outcomes.refl _).bind fun ns _ h => h ▸ ?_
  refine (normalizeEnvironment_perm henvironment).bind fun globalEnvironment _ h => h ▸ ?_
  refine (Outcomes.refl _).bind fun overrides _ h => h ▸ ?_
  refine (normalizeDependencies_perm hdependencies).bind fun normalized _ h => h ▸ ?_
  exact .refl _

def templateSettings : TemplateSettings := ⟨Hashing.sha256, lowerText, 1000⟩

/-- A catalog of two plain components. -/
def pairCatalog : TemplateCatalog := ⟨[("api", plainComponent), ("db", plainComponent)], []⟩

theorem compose_reordered_pair :
    (compose templateSettings pairCatalog (.list [.str "api", .str "db"])
      (.map [(.str "api", .list [.str "db"]), (.str "db", .list [])]) (some "demo")
      (.map [(.str "A", .str "1"), (.str "B", .str "2")]) .null .null false).toOption =
    (compose templateSettings pairCatalog (.list [.str "db", .str "api"])
      (.map [(.str "db", .list []), (.str "api", .list [.str "db"])]) (some "demo")
      (.map [(.str "B", .str "2"), (.str "A", .str "1")]) .null .null false).toOption :=
  compose_reordered templateSettings pairCatalog (some "demo") false
    (.list (.swap _ _ _))
    (.map (.swap _ _ _) (.cons ⟨rfl, .same _⟩ (.cons ⟨rfl, .same _⟩ .nil)))
    (.map (by decide) (.swap _ _ _))

example : (compose templateSettings pairCatalog (.list [.str "api", .str "db"])
    (.map [(.str "api", .list [.str "db"]), (.str "db", .list [])]) (some "demo")
    (.map [(.str "A", .str "1"), (.str "B", .str "2")]) .null .null false).isOk := by
  decide

end Orchestrator.Templates.TemplateCatalog
