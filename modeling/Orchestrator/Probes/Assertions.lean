import Mathlib.Data.Part
import Mathlib.Data.Rat.Defs
import Orchestrator.Models.Mappings
import Orchestrator.Probes.Client

/-!
# Probes — assertions on JSON

The three assertions on the JSON of a response, against what a JSON value says: a partial function
from paths to the shapes that are found there.  One value equals another if they say the same, and
contains it if it says no less, so the relations are those of an order.

* `Shape`, `facts`: what a value says at a path, its numbers being read as rationals.
* `jsonContains_iff`, `jsonEqual_iff`: `_json_contains` is `≥`, `_json_equal` is `=`.
* `assertResponse_congr`: values that are equal pass the same assertions.
* `assertion_relations`: the relations, and the assertions together.
-/

namespace Orchestrator.RouteProbes

section
-- The equations are generated here, once, and not by each of the proofs below.
attribute [local simp] jsonContains itemsContained fieldsContained
attribute [local simp] jsonEqual itemsEqual fieldsEqual follow
end

/-! ### What a value says -/

/-- What a value is at its root. -/
inductive Shape where
  | null
  | bool (b : Bool)
  | number (q : ℚ)
  | irregular (x : NonFinite)
  | text (s : String)
  | list
  | object
  deriving DecidableEq

/-- The shape of a value, where a reading of floats is given. -/
def shape (v : FloatText → ℚ) : Json → Shape
  | .null => .null
  | .bool b => .bool b
  | .num n => .number n
  | .float x => .number (v x)
  | .nonfinite x => .irregular x
  | .str s => .text s
  | .arr _ => .list
  | .obj _ => .object

/-- The shape that a value has at a path. -/
def facts (v : FloatText → ℚ) (x : Json) : List Token → Part Shape :=
  fun path => Part.ofOption ((follow path x).map (shape v))

mutual

/-- Numbers are finite, and no key is twice in an object. -/
def Proper : Json → Prop
  | .nonfinite _ => False
  | .arr items => properItems items
  | .obj fields => (fields.map Prod.fst).Nodup ∧ properFields fields
  | _ => True

def properItems : List Json → Prop
  | [] => True
  | x :: l => Proper x ∧ properItems l

def properFields : List (String × Json) → Prop
  | [] => True
  | (_, x) :: l => Proper x ∧ properFields l

end

theorem properItems_iff {l : List Json} : properItems l ↔ ∀ x ∈ l, Proper x := by
  induction l with
  | nil => simp [properItems]
  | cons x l ih => rw [properItems, ih, List.forall_mem_cons]

theorem properFields_iff {l : List (String × Json)} :
    properFields l ↔ ∀ e ∈ l, Proper e.2 := by
  induction l with
  | nil => simp [properFields]
  | cons e l ih => rw [properFields, ih, List.forall_mem_cons]

/-- An induction over values, with a hypothesis for each item and each entry. -/
theorem json_induction {motive : Json → Prop}
    (leaf : ∀ x, (∀ l, x ≠ .arr l) → (∀ l, x ≠ .obj l) → motive x)
    (arr : ∀ l, (∀ x ∈ l, motive x) → motive (.arr l))
    (obj : ∀ l : List (String × Json), (∀ e ∈ l, motive e.2) → motive (.obj l)) :
    ∀ x, motive x
  | .arr l => arr l fun x _ => json_induction leaf arr obj x
  | .obj l => obj l fun e _ => json_induction leaf arr obj e.2
  | .null | .bool _ | .num _ | .float _ | .nonfinite _ | .str _ => by
      refine leaf _ ?_ ?_ <;> (intro l h; cases h)
termination_by x => x
decreasing_by
  · rename_i hx
    have := List.sizeOf_lt_of_mem hx
    simp only [Json.arr.sizeOf_spec]
    omega
  · rename_i he
    have := List.sizeOf_lt_of_mem he
    cases e
    simp only [Prod.mk.sizeOf_spec] at this
    simp only [Json.obj.sizeOf_spec]
    omega

/-! ### Paths -/

theorem follow_append (p q : List Token) (x : Json) :
    follow (p ++ q) x = (follow p x).bind (follow q) := by
  induction p generalizing x with
  | nil => rfl
  | cons t p ih =>
      cases t with
      | name k =>
          cases x with
          | obj fields =>
              simp only [List.cons_append, follow, Option.bind_assoc]
              congr 1
              funext y
              exact ih y
          | _ => rfl
      | index n =>
          cases x with
          | arr items =>
              simp only [List.cons_append, follow, Option.bind_assoc]
              congr 1
              funext y
              exact ih y
          | _ => rfl

theorem proper_follow {p : List Token} {x y : Json} (hx : Proper x) (h : follow p x = some y) :
    Proper y := by
  induction p generalizing x with
  | nil => exact Option.some.inj h ▸ hx
  | cons t p ih =>
      cases t with
      | name k =>
          cases x with
          | obj fields =>
              obtain ⟨z, hz, h⟩ := Option.bind_eq_some_iff.mp h
              have hmem := (Mapping.lookup_eq_some_iff hx.1).mp hz
              exact ih (properFields_iff.mp hx.2 _ hmem) h
          | _ => cases h
      | index n =>
          cases x with
          | arr items =>
              obtain ⟨z, hz, h⟩ := Option.bind_eq_some_iff.mp h
              exact ih (properItems_iff.mp hx _ (List.mem_of_getElem? hz)) h
          | _ => cases h

/-! ### One value says no less than another -/

section
variable {v : FloatText → ℚ} {a b c : Json}

theorem facts_le_iff : facts v b ≤ facts v a ↔
    ∀ p y, follow p b = some y → ∃ z, follow p a = some z ∧ shape v z = shape v y := by
  constructor
  · intro h p y hy
    have hm := h p (shape v y) (Part.mem_ofOption.mpr (by rw [hy]; rfl))
    obtain ⟨z, hz, hshape⟩ := Option.map_eq_some_iff.mp (Part.mem_ofOption.mp hm)
    exact ⟨z, hz, hshape⟩
  · intro h p s hs
    obtain ⟨y, hy, rfl⟩ := Option.map_eq_some_iff.mp (Part.mem_ofOption.mp hs)
    obtain ⟨z, hz, hshape⟩ := h p y hy
    exact Part.mem_ofOption.mpr (by rw [hz, ← hshape]; rfl)

theorem shape_of_facts_le (h : facts v b ≤ facts v a) : shape v a = shape v b := by
  obtain ⟨z, hz, hshape⟩ := facts_le_iff.mp h [] b rfl
  cases hz
  exact hshape

/-- Below a path, the same holds. -/
theorem facts_le_follow (h : facts v b ≤ facts v a) {p : List Token} {y : Json}
    (hy : follow p b = some y) : ∃ z, follow p a = some z ∧ facts v y ≤ facts v z := by
  obtain ⟨z, hz, -⟩ := facts_le_iff.mp h p y hy
  refine ⟨z, hz, facts_le_iff.mpr fun q w hw => ?_⟩
  have hbelow : follow (p ++ q) b = some w := by rw [follow_append, hy]; exact hw
  obtain ⟨u, hu, hshape⟩ := facts_le_iff.mp h _ w hbelow
  rw [follow_append, hz] at hu
  exact ⟨u, hu, hshape⟩

theorem facts_le_leaf (hl : ∀ l, b ≠ .arr l) (ho : ∀ l, b ≠ .obj l) :
    facts v b ≤ facts v a ↔ shape v a = shape v b := by
  refine ⟨shape_of_facts_le, fun h => facts_le_iff.mpr fun p y hy => ?_⟩
  cases p with
  | nil =>
      cases hy
      exact ⟨a, rfl, h⟩
  | cons t p =>
      cases b with
      | arr l => exact absurd rfl (hl l)
      | obj l => exact absurd rfl (ho l)
      | _ => cases t <;> cases hy

theorem facts_le_arr {l : List Json} : facts v (.arr l) ≤ facts v a ↔
    ∃ items : List Json, a = .arr items ∧
      ∀ (i : Nat) x, l[i]? = some x → ∃ y, items[i]? = some y ∧ facts v x ≤ facts v y := by
  constructor
  · intro h
    have hshape := shape_of_facts_le h
    cases a with
    | arr items =>
        refine ⟨items, rfl, fun i x hx => ?_⟩
        obtain ⟨z, hz, hle⟩ := facts_le_follow h (p := [.index i]) (y := x)
          (by rw [follow, hx]; rfl)
        rw [follow] at hz
        obtain ⟨y, hy, hyz⟩ := Option.bind_eq_some_iff.mp hz
        cases hyz
        exact ⟨z, hy, hle⟩
    | _ => cases hshape
  · rintro ⟨items, rfl, h⟩
    refine facts_le_iff.mpr fun p y hy => ?_
    cases p with
    | nil =>
        cases hy
        exact ⟨_, rfl, rfl⟩
    | cons t p =>
        cases t with
        | name k => cases hy
        | index i =>
            obtain ⟨x, hx, hy⟩ := Option.bind_eq_some_iff.mp hy
            obtain ⟨x', hx', hle⟩ := h i x hx
            obtain ⟨z, hz, hshape⟩ := facts_le_iff.mp hle p y hy
            exact ⟨z, by rw [follow, hx']; exact hz, hshape⟩

theorem facts_le_obj {l : List (String × Json)} : facts v (.obj l) ≤ facts v a ↔
    ∃ fields : List (String × Json), a = .obj fields ∧
      ∀ k x, l.lookup k = some x → ∃ y, fields.lookup k = some y ∧ facts v x ≤ facts v y := by
  constructor
  · intro h
    have hshape := shape_of_facts_le h
    cases a with
    | obj fields =>
        refine ⟨fields, rfl, fun k x hx => ?_⟩
        obtain ⟨z, hz, hle⟩ := facts_le_follow h (p := [.name k]) (y := x)
          (by rw [follow, hx]; rfl)
        rw [follow] at hz
        obtain ⟨y, hy, hyz⟩ := Option.bind_eq_some_iff.mp hz
        cases hyz
        exact ⟨z, hy, hle⟩
    | _ => cases hshape
  · rintro ⟨fields, rfl, h⟩
    refine facts_le_iff.mpr fun p y hy => ?_
    cases p with
    | nil =>
        cases hy
        exact ⟨_, rfl, rfl⟩
    | cons t p =>
        cases t with
        | index i => cases hy
        | name k =>
            obtain ⟨x, hx, hy⟩ := Option.bind_eq_some_iff.mp hy
            obtain ⟨x', hx', hle⟩ := h k x hx
            obtain ⟨z, hz, hshape⟩ := facts_le_iff.mp hle p y hy
            exact ⟨z, by rw [follow, hx']; exact hz, hshape⟩

end

/-! ### The relations of the client -/

/-- A loop over expected items, with the actual ones alongside. -/
theorem itemsLoop_iff {R : Json → Json → Bool} {f : List Json → List Json → Bool}
    (hnil : ∀ actual, f actual [] = true)
    (hcons : ∀ actual x l, f actual (x :: l) = match actual with
      | [] => false
      | y :: items => R y x && f items l) {actual expected : List Json} :
    f actual expected = true ↔
      ∀ (i : Nat) x, expected[i]? = some x → ∃ y, actual[i]? = some y ∧ R y x = true := by
  induction expected generalizing actual with
  | nil => simp [hnil]
  | cons x l ih =>
      rw [hcons]
      cases actual with
      | nil =>
          refine ⟨fun h => (nomatch h), fun h => ?_⟩
          obtain ⟨y, hy, -⟩ := h 0 x rfl
          cases hy
      | cons y items =>
          rw [Bool.and_eq_true, ih]
          constructor
          · rintro ⟨hy, hitems⟩ i z hz
            cases i with
            | zero =>
                cases hz
                exact ⟨y, rfl, hy⟩
            | succ i => exact hitems i z hz
          · intro h
            refine ⟨?_, fun i z hz => h (i + 1) z hz⟩
            obtain ⟨y', hy', hR⟩ := h 0 x rfl
            cases hy'
            exact hR

/-- A loop over expected entries, which are looked up. -/
theorem fieldsLoop_iff {R : Json → Json → Bool} {f : List (String × Json) → Bool}
    {fields : List (String × Json)} (hnil : f [] = true)
    (hcons : ∀ k x l, f ((k, x) :: l) = match fields.lookup k with
      | none => false
      | some y => R y x && f l) {expected : List (String × Json)}
    (hnodup : (expected.map Prod.fst).Nodup) :
    f expected = true ↔
      ∀ k x, expected.lookup k = some x → ∃ y, fields.lookup k = some y ∧ R y x = true := by
  have hmem : f expected = true ↔
      ∀ e ∈ expected, ∃ y, fields.lookup e.1 = some y ∧ R y e.2 = true := by
    clear hnodup
    induction expected with
    | nil => simp [hnil]
    | cons e l ih =>
        obtain ⟨k, x⟩ := e
        rw [hcons, List.forall_mem_cons]
        cases hk : fields.lookup k with
        | none =>
            refine ⟨fun h => (nomatch h), fun h => ?_⟩
            obtain ⟨y, hy, -⟩ := h.1
            cases hy
        | some y =>
            dsimp only
            rw [Bool.and_eq_true, ih]
            refine and_congr ⟨fun h => ⟨y, rfl, h⟩, ?_⟩ Iff.rfl
            rintro ⟨y', hy', h⟩
            cases hy'
            exact h
  rw [hmem]
  constructor
  · intro h k x hx
    exact h (k, x) ((Mapping.lookup_eq_some_iff hnodup).mp hx)
  · intro h e he
    exact h e.1 e.2 ((Mapping.lookup_eq_some_iff hnodup).mpr he)

section
variable (v : FloatText → ℚ)

/-- Scalars are equal if their shapes are. -/
theorem jsonScalarEqual_iff {actual expected : Json} (hproper : Proper expected)
    (hl : ∀ l, expected ≠ .arr l) (ho : ∀ l, expected ≠ .obj l) :
    jsonScalarEqual v actual expected = true ↔
      shape v actual = shape v expected := by
  unfold jsonScalarEqual
  cases expected with
  | arr l => exact absurd rfl (hl l)
  | obj l => exact absurd rfl (ho l)
  | nonfinite x => exact hproper.elim
  | num n => cases actual <;> simp [numberOf, equalNumbers, shape]
  | float x => cases actual <;> simp [numberOf, equalNumbers, shape]
  | null => cases actual <;> simp [numberOf, shape]
  | bool b => cases actual <;> simp [numberOf, shape]
  | str t => cases actual <;> simp [numberOf, shape]

theorem jsonContains_leaf {actual expected : Json} (hl : ∀ l, expected ≠ .arr l)
    (ho : ∀ l, expected ≠ .obj l) :
    jsonContains v actual expected = jsonScalarEqual v actual expected := by
  cases expected with
  | arr l => exact absurd rfl (hl l)
  | obj l => exact absurd rfl (ho l)
  | _ => rw [jsonContains] <;> simp

theorem jsonContains_arr {actual : Json} {l : List Json} :
    jsonContains v actual (.arr l) = true ↔ ∃ items : List Json, actual = .arr items ∧
      ∀ (i : Nat) x, l[i]? = some x → ∃ y, items[i]? = some y ∧ jsonContains v y x = true := by
  cases actual with
  | arr items =>
      rw [jsonContains, itemsLoop_iff (R := jsonContains v)
        (fun actual => by rw [itemsContained])
        (fun actual x l => by cases actual <;> rw [itemsContained])]
      refine ⟨fun h => ⟨items, rfl, h⟩, ?_⟩
      rintro ⟨_, heq, h⟩
      cases heq
      exact h
  | _ =>
      rw [jsonContains]
      · refine ⟨fun h => (nomatch h), fun ⟨_, heq, _⟩ => (nomatch heq)⟩
      · intro items heq
        cases heq

theorem jsonContains_obj {actual : Json} {l : List (String × Json)}
    (hl : (l.map Prod.fst).Nodup) :
    jsonContains v actual (.obj l) = true ↔ ∃ fields : List (String × Json),
      actual = .obj fields ∧ ∀ k x, l.lookup k = some x →
        ∃ y, fields.lookup k = some y ∧ jsonContains v y x = true := by
  cases actual with
  | obj fields =>
      rw [jsonContains, fieldsLoop_iff (R := jsonContains v) (by rw [fieldsContained])
        (fun k x l => fieldsContained.eq_def v fields ((k, x) :: l)) hl]
      refine ⟨fun h => ⟨fields, rfl, h⟩, ?_⟩
      rintro ⟨_, heq, h⟩
      cases heq
      exact h
  | _ =>
      rw [jsonContains]
      · refine ⟨fun h => (nomatch h), fun ⟨_, heq, _⟩ => (nomatch heq)⟩
      · intro fields heq
        cases heq

theorem jsonEqual_leaf {actual expected : Json} (hl : ∀ l, expected ≠ .arr l)
    (ho : ∀ l, expected ≠ .obj l) :
    jsonEqual v actual expected = jsonScalarEqual v actual expected := by
  cases expected with
  | arr l => exact absurd rfl (hl l)
  | obj l => exact absurd rfl (ho l)
  | _ => rw [jsonEqual] <;> simp

theorem jsonEqual_arr {actual : Json} {l : List Json} :
    jsonEqual v actual (.arr l) = true ↔ ∃ items : List Json, actual = .arr items ∧
      items.length = l.length ∧
      ∀ (i : Nat) x, l[i]? = some x → ∃ y, items[i]? = some y ∧ jsonEqual v y x = true := by
  cases actual with
  | arr items =>
      rw [jsonEqual, Bool.and_eq_true, beq_iff_eq, itemsLoop_iff (R := jsonEqual v)
        (fun actual => by rw [itemsEqual]) (fun actual x l => by cases actual <;> rw [itemsEqual])]
      refine ⟨fun h => ⟨items, rfl, h⟩, ?_⟩
      rintro ⟨_, heq, h⟩
      cases heq
      exact h
  | _ =>
      rw [jsonEqual]
      · refine ⟨fun h => (nomatch h), fun ⟨_, heq, _⟩ => (nomatch heq)⟩
      · intro items heq
        cases heq

theorem jsonEqual_obj {actual : Json} {l : List (String × Json)}
    (hl : (l.map Prod.fst).Nodup) :
    jsonEqual v actual (.obj l) = true ↔ ∃ fields : List (String × Json),
      actual = .obj fields ∧ (∀ e ∈ fields, (l.lookup e.1).isSome) ∧
      ∀ k x, l.lookup k = some x →
        ∃ y, fields.lookup k = some y ∧ jsonEqual v y x = true := by
  cases actual with
  | obj fields =>
      rw [jsonEqual, Bool.and_eq_true, List.all_eq_true,
        fieldsLoop_iff (R := jsonEqual v) (by rw [fieldsEqual])
          (fun k x l => fieldsEqual.eq_def v fields ((k, x) :: l)) hl]
      refine ⟨fun h => ⟨fields, rfl, h⟩, ?_⟩
      rintro ⟨_, heq, h⟩
      cases heq
      exact h
  | _ =>
      rw [jsonEqual]
      · refine ⟨fun h => (nomatch h), fun ⟨_, heq, _⟩ => (nomatch heq)⟩
      · intro fields heq
        cases heq

/-- **Containment.**  A value contains another exactly if it says no less. -/
theorem jsonContains_iff {expected : Json} : Proper expected → ∀ actual,
    (jsonContains v actual expected = true ↔ facts v expected ≤ facts v actual) := by
  induction expected using json_induction with
  | leaf x hl ho =>
      intro hx actual
      rw [jsonContains_leaf _ hl ho, jsonScalarEqual_iff v hx hl ho, facts_le_leaf hl ho]
  | arr l ih =>
      intro hl actual
      rw [jsonContains_arr, facts_le_arr]
      refine exists_congr fun items => and_congr_right fun _ => forall_congr' fun i =>
        forall_congr' fun x => imp_congr_right fun hx => exists_congr fun y =>
          and_congr_right fun _ => ?_
      have hm := List.mem_of_getElem? hx
      exact ih x hm (properItems_iff.mp hl x hm) y
  | obj l ih =>
      intro hl actual
      rw [jsonContains_obj _ hl.1, facts_le_obj]
      refine exists_congr fun fields => and_congr_right fun _ => forall_congr' fun k =>
        forall_congr' fun x => imp_congr_right fun hx => exists_congr fun y =>
          and_congr_right fun _ => ?_
      have hm := (Mapping.lookup_eq_some_iff hl.1).mp hx
      exact ih (k, x) hm (properFields_iff.mp hl.2 _ hm) y

/-- **Equality.**  Values are equal exactly if they say the same. -/
theorem jsonEqual_iff {expected : Json} : Proper expected → ∀ actual, Proper actual →
    (jsonEqual v actual expected = true ↔ facts v actual = facts v expected) := by
  induction expected using json_induction with
  | leaf x hl ho =>
      intro hx actual _
      rw [jsonEqual_leaf _ hl ho, jsonScalarEqual_iff v hx hl ho]
      constructor
      · intro h
        -- A leaf says nothing that an array or an object says.
        have hla : ∀ l, actual ≠ .arr l := by
          rintro l rfl
          cases x with
          | arr l => exact hl l rfl
          | _ => cases h
        have hoa : ∀ l, actual ≠ .obj l := by
          rintro l rfl
          cases x with
          | obj l => exact ho l rfl
          | _ => cases h
        exact le_antisymm ((facts_le_leaf hla hoa).mpr h.symm) ((facts_le_leaf hl ho).mpr h)
      · intro h
        exact shape_of_facts_le h.ge
  | arr l ih =>
      intro hl actual ha
      have hitem {i : Nat} {x : Json} (hx : l[i]? = some x) {y : Json} (hy : Proper y) :=
        ih x (List.mem_of_getElem? hx) (properItems_iff.mp hl x (List.mem_of_getElem? hx)) y hy
      rw [jsonEqual_arr]
      constructor
      · rintro ⟨items, rfl, hlength, h⟩
        refine le_antisymm (facts_le_arr.mpr ⟨l, rfl, fun i y hy => ?_⟩)
          (facts_le_arr.mpr ⟨items, rfl, fun i x hx => ?_⟩)
        · -- No item of the actual value is beyond the expected ones.
          have hi : i < l.length := hlength ▸ (List.getElem?_eq_some_iff.mp hy).1
          obtain ⟨y', hy', he⟩ := h i l[i] (List.getElem?_eq_getElem hi)
          cases hy.symm.trans hy'
          have hproper := properItems_iff.mp ha y (List.mem_of_getElem? hy)
          exact ⟨l[i], List.getElem?_eq_getElem hi,
            ((hitem (List.getElem?_eq_getElem hi) hproper).mp he).le⟩
        · obtain ⟨y, hy, he⟩ := h i x hx
          have hproper := properItems_iff.mp ha y (List.mem_of_getElem? hy)
          exact ⟨y, hy, ((hitem hx hproper).mp he).ge⟩
      · intro h
        obtain ⟨items, rfl, hitems⟩ := facts_le_arr.mp h.ge
        obtain ⟨l', hl', hback⟩ := facts_le_arr.mp h.le
        cases hl'
        -- Each is as long as the other has items.
        have hlength : items.length = l.length := by
          refine le_antisymm ?_ ?_
          · by_contra hlt
            have hi : l.length < items.length := not_le.mp hlt
            obtain ⟨x, hx, -⟩ := hback _ _ (List.getElem?_eq_getElem hi)
            exact absurd (List.getElem?_eq_some_iff.mp hx).1 (lt_irrefl _)
          · by_contra hlt
            have hi : items.length < l.length := not_le.mp hlt
            obtain ⟨x, hx, -⟩ := hitems _ _ (List.getElem?_eq_getElem hi)
            exact absurd (List.getElem?_eq_some_iff.mp hx).1 (lt_irrefl _)
        refine ⟨items, rfl, hlength, fun i x hx => ?_⟩
        obtain ⟨y, hy, hle⟩ := hitems i x hx
        obtain ⟨x', hx', hge⟩ := hback i y hy
        cases hx.symm.trans hx'
        have hproper := properItems_iff.mp ha y (List.mem_of_getElem? hy)
        exact ⟨y, hy, (hitem hx hproper).mpr (le_antisymm hge hle)⟩
  | obj l ih =>
      intro hl actual ha
      have hentry {k : String} {x : Json} (hx : l.lookup k = some x) {y : Json} (hy : Proper y) :=
        have hm := (Mapping.lookup_eq_some_iff hl.1).mp hx
        ih (k, x) hm (properFields_iff.mp hl.2 _ hm) y hy
      rw [jsonEqual_obj _ hl.1]
      constructor
      · rintro ⟨fields, rfl, hkeys, h⟩
        have hproper {k : String} {y : Json} (hy : fields.lookup k = some y) : Proper y :=
          properFields_iff.mp ha.2 _ ((Mapping.lookup_eq_some_iff ha.1).mp hy)
        refine le_antisymm (facts_le_obj.mpr ⟨l, rfl, fun k y hy => ?_⟩)
          (facts_le_obj.mpr ⟨fields, rfl, fun k x hx => ?_⟩)
        · obtain ⟨x, hx⟩ := Option.isSome_iff_exists.mp
            (hkeys _ ((Mapping.lookup_eq_some_iff ha.1).mp hy))
          obtain ⟨y', hy', he⟩ := h k x hx
          cases hy.symm.trans hy'
          exact ⟨x, hx, ((hentry hx (hproper hy)).mp he).le⟩
        · obtain ⟨y, hy, he⟩ := h k x hx
          exact ⟨y, hy, ((hentry hx (hproper hy)).mp he).ge⟩
      · intro h
        obtain ⟨fields, rfl, hfields⟩ := facts_le_obj.mp h.ge
        obtain ⟨l', hl', hback⟩ := facts_le_obj.mp h.le
        cases hl'
        refine ⟨fields, rfl, fun e he => ?_, fun k x hx => ?_⟩
        · obtain ⟨x, hx, -⟩ := hback e.1 e.2 ((Mapping.lookup_eq_some_iff ha.1).mpr he)
          rw [hx]
          rfl
        · obtain ⟨y, hy, hle⟩ := hfields k x hx
          obtain ⟨x', hx', hge⟩ := hback k y hy
          cases hx.symm.trans hx'
          have hproper := properFields_iff.mp ha.2 _ ((Mapping.lookup_eq_some_iff ha.1).mp hy)
          exact ⟨y, hy, (hentry hx hproper).mpr (le_antisymm hge hle)⟩

/-! ### Assertions -/

/-- Values that are equal have equal values at a path. -/
theorem follow_of_equal {a b w : Json} (ha : Proper a) (hb : Proper b)
    (h : jsonEqual v a b = true) {p : List Token} (hw : follow p b = some w) :
    ∃ z, follow p a = some z ∧ jsonEqual v z w = true := by
  have hfacts := (jsonEqual_iff v hb a ha).mp h
  obtain ⟨z, hz, hle⟩ := facts_le_follow hfacts.ge hw
  obtain ⟨w', hw', hge⟩ := facts_le_follow hfacts.le hz
  cases hw.symm.trans hw'
  exact ⟨z, hz, (jsonEqual_iff v (proper_follow hb hw) z (proper_follow ha hz)).mpr
    (le_antisymm hge hle)⟩

/-- Nothing that is compared with a value tells it from one that is equal. -/
theorem jsonEqual_congr {a b x : Json} (ha : Proper a) (hb : Proper b) (hx : Proper x)
    (h : jsonEqual v a b = true) :
    jsonEqual v a x = jsonEqual v b x := by
  rw [Bool.eq_iff_iff, jsonEqual_iff v hx a ha, jsonEqual_iff v hx b hb,
    (jsonEqual_iff v hb a ha).mp h]

theorem jsonContains_congr {a b x : Json} (ha : Proper a) (hb : Proper b) (hx : Proper x)
    (h : jsonEqual v a b = true) :
    jsonContains v a x = jsonContains v b x := by
  rw [Bool.eq_iff_iff, jsonContains_iff v hx, jsonContains_iff v hx,
    (jsonEqual_iff v hb a ha).mp h]

theorem pathHolds_congr {a b x : Json} (ha : Proper a) (hb : Proper b) (hx : Proper x)
    (h : jsonEqual v a b = true) (path : String) :
    pathHolds v (some a) path x = pathHolds v (some b) path x := by
  have hback : jsonEqual v b a = true :=
    (jsonEqual_iff v ha b hb).mpr ((jsonEqual_iff v hb a ha).mp h).symm
  simp only [pathHolds]
  cases jsonPathTokens path with
  | error e => rfl
  | ok tokens =>
      have hany : ((follow tokens a).any fun value => jsonEqual v value x) =
          (follow tokens b).any fun value => jsonEqual v value x := by
        cases hw : follow tokens b with
        | none =>
            cases hz : follow tokens a with
            | none => rfl
            | some z =>
                obtain ⟨w, hw', -⟩ := follow_of_equal v hb ha hback hz
                cases hw.symm.trans hw'
        | some w =>
            obtain ⟨z, hz, he⟩ := follow_of_equal v ha hb h hw
            rw [hz, Option.any_some, Option.any_some]
            exact jsonEqual_congr v (proper_follow ha hz) (proper_follow hb hw) hx he
      exact congrArg Except.ok hany

theorem pathErrors_congr {a b : Json} (ha : Proper a) (hb : Proper b)
    (h : jsonEqual v a b = true) : ∀ {l : JsonFields}, (∀ e ∈ l, Proper e.2) →
    pathErrors v (some a) l = pathErrors v (some b) l
  | [], _ => rfl
  | e :: l, hl => by
      rw [pathErrors, pathErrors, pathHolds_congr v ha hb (hl e List.mem_cons_self) h,
        pathErrors_congr ha hb h fun e he => hl e (List.mem_cons_of_mem _ he)]

/-- Values that are equal pass the same assertions, with the same errors. -/
theorem assertResponse_congr {a b : Json} (ha : Proper a) (hb : Proper b)
    (h : jsonEqual v a b = true) {assertions : JsonFields}
    (hassertions : Proper (.obj assertions)) (body : String) (headers : List (String × String)) :
    assertResponse v assertions body (some a) headers =
      assertResponse v assertions body (some b) headers := by
  have hentry {k : String} {x : Json} (hx : assertions.lookup k = some x) : Proper x :=
    properFields_iff.mp hassertions.2 _ ((Mapping.lookup_eq_some_iff hassertions.1).mp hx)
  have hpaths : ∀ e ∈ objectOf (assertions.lookup "json_path_equals"), Proper e.2 := by
    intro e he
    cases hl : assertions.lookup "json_path_equals" with
    | none => rw [hl] at he; cases he
    | some x =>
        rw [hl] at he
        cases x with
        | obj fields => exact properFields_iff.mp (hentry hl).2 e he
        | _ => cases he
  have hequals : ((assertions.lookup "json_equals").any fun x =>
      !(some a).any fun a => jsonEqual v a x) =
      (assertions.lookup "json_equals").any fun x =>
        !(some b).any fun a => jsonEqual v a x := by
    cases hl : assertions.lookup "json_equals" with
    | none => rfl
    | some x =>
        simp only [Option.any_some]
        rw [jsonEqual_congr v ha hb (hentry hl) h]
  have hcontains : ((assertions.lookup "json_contains").any fun x =>
      !(some a).any fun a => jsonContains v a x) =
      (assertions.lookup "json_contains").any fun x =>
        !(some b).any fun a => jsonContains v a x := by
    cases hl : assertions.lookup "json_contains" with
    | none => rfl
    | some x =>
        simp only [Option.any_some]
        rw [jsonContains_congr v ha hb (hentry hl) h]
  rw [assertResponse, assertResponse, pathErrors_congr v ha hb h hpaths, hequals, hcontains]

/-- What holds at a path of a response contains what an assertion of containment has there. -/
theorem contains_of_pathHolds {a s x y : Json} (ha : Proper a) (hs : Proper s) (hx : Proper x)
    (h : jsonContains v a s = true) {path : String} {tokens : List Token}
    (htokens : jsonPathTokens path = .ok tokens) (hy : follow tokens s = some y)
    (hholds : pathHolds v (some a) path x = .ok true) :
    jsonContains v x y = true := by
  obtain ⟨z, hz, hle⟩ := facts_le_follow ((jsonContains_iff v hs a).mp h) hy
  have hequal : jsonEqual v z x = true := by
    simp only [pathHolds, htokens] at hholds
    have hany := Except.ok.inj hholds
    rwa [hz, Option.any_some] at hany
  rw [jsonContains_iff v (proper_follow hs hy),
    ← (jsonEqual_iff v hx z (proper_follow ha hz)).mp hequal]
  exact hle

end

/-- **The relations of the assertions.**  On proper values, whatever rational each float is read as:
equality is an equivalence; containment is reflexive and transitive, and goes both ways exactly
between equal values; and a path that leads somewhere in the expected value leads in the actual one
to a value that is related to it as the whole is.  So values that are equal pass the same
assertions, and what is asserted at a path cannot but contain what is asserted to be contained. -/
theorem assertion_relations (v : FloatText → ℚ) :
    (∀ a, Proper a → jsonEqual v a a = true) ∧
    (∀ a b, Proper a → Proper b → jsonEqual v a b = true →
      jsonEqual v b a = true) ∧
    (∀ a b c, Proper a → Proper b → Proper c → jsonEqual v a b = true →
      jsonEqual v b c = true → jsonEqual v a c = true) ∧
    (∀ a, Proper a → jsonContains v a a = true) ∧
    (∀ a b c, Proper a → Proper b → Proper c → jsonContains v a b = true →
      jsonContains v b c = true → jsonContains v a c = true) ∧
    (∀ a b, Proper a → Proper b →
      (jsonContains v a b = true ∧ jsonContains v b a = true ↔
        jsonEqual v a b = true)) ∧
    (∀ actual expected path tokens w, Proper actual → Proper expected →
      jsonPathTokens path = .ok tokens → follow tokens expected = some w →
        (jsonContains v actual expected = true →
          ∃ z, follow tokens actual = some z ∧ jsonContains v z w = true) ∧
        (jsonEqual v actual expected = true →
          ∃ z, follow tokens actual = some z ∧ jsonEqual v z w = true)) ∧
    (∀ actual expected assertions body headers, Proper actual → Proper expected →
      Proper (.obj assertions) → jsonEqual v actual expected = true →
        assertResponse v assertions body (some actual) headers =
          assertResponse v assertions body (some expected) headers) ∧
    ∀ actual subset path tokens x y, Proper actual → Proper subset → Proper x →
      jsonContains v actual subset = true → jsonPathTokens path = .ok tokens →
      follow tokens subset = some y → pathHolds v (some actual) path x = .ok true →
        jsonContains v x y = true := by
  refine ⟨fun a ha => ?_, fun a b ha hb h => ?_, fun a b c ha hb hc h h' => ?_, fun a ha => ?_,
    fun a b c ha hb hc h h' => ?_, fun a b ha hb => ?_, ?_, ?_, ?_⟩
  · exact (jsonEqual_iff v ha a ha).mpr rfl
  · exact (jsonEqual_iff v ha b hb).mpr ((jsonEqual_iff v hb a ha).mp h).symm
  · exact (jsonEqual_iff v hc a ha).mpr
      (((jsonEqual_iff v hb a ha).mp h).trans ((jsonEqual_iff v hc b hb).mp h'))
  · exact (jsonContains_iff v ha a).mpr le_rfl
  · exact (jsonContains_iff v hc a).mpr
      (((jsonContains_iff v hc b).mp h').trans ((jsonContains_iff v hb a).mp h))
  · rw [jsonContains_iff v hb, jsonContains_iff v ha, jsonEqual_iff v hb a ha]
    exact ⟨fun h => le_antisymm h.2 h.1, fun h => ⟨h.ge, h.le⟩⟩
  · intro actual expected path tokens w ha he _ hw
    refine ⟨fun h => ?_, fun h => follow_of_equal v ha he h hw⟩
    obtain ⟨z, hz, hle⟩ := facts_le_follow ((jsonContains_iff v he actual).mp h) hw
    exact ⟨z, hz, (jsonContains_iff v (proper_follow he hw) z).mpr hle⟩
  · intro actual expected assertions body headers ha he hassertions h
    exact assertResponse_congr v ha he h hassertions body headers
  · intro actual subset path tokens x y ha hs hx h htokens hy hholds
    exact contains_of_pathHolds v ha hs hx h htokens hy hholds

end Orchestrator.RouteProbes
