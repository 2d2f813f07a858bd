import Mathlib.Data.Set.Basic
import Orchestrator.Graphs.Acyclic

/-!
# Graphs — search for a cycle

A search in depth, with the nodes it is in and the nodes it has left.

* `visit`, `visitEach`: of a node, and of one after the other; the first argument bounds the depth.
* `Settled`, `Trail`: what holds of the nodes left, and of those that the search is in.
* `visit_spec`: what one visit does.
* `search_spec`: the search of all nodes is too deep, or reports a cycle exactly where there is one.
* `Nests`, `search_spent`: without a cycle it is too deep exactly where the graph has a long way
  that the search comes to first.
-/

namespace Orchestrator.Graphs

variable {α : Type}

/-- The nodes that the search is in, and those that it has left, the last one first. -/
structure Search (α : Type) where
  visiting : List α
  visited : List α

/-- How a search ends: too deep, at a node that it is in, or with a state. -/
inductive Outcome (α : Type) where
  | spent
  | cycle
  | done (s : Search α)

/-- One after the other. -/
def visitEach (visit : α → Search α → Outcome α) : List α → Search α → Outcome α
  | [], s => .done s
  | a :: l, s => match visit a s with
      | .done s => visitEach visit l s
      | outcome => outcome

def visit [DecidableEq α] (next : α → List α) : Nat → α → Search α → Outcome α
  | 0, _, _ => .spent
  | n + 1, a, s =>
      if a ∈ s.visiting then .cycle
      else if a ∈ s.visited then .done s
      else match visitEach (visit next n) (next a) { s with visiting := a :: s.visiting } with
        | .done s => .done ⟨s.visiting.erase a, a :: s.visited⟩
        | outcome => outcome

/-! ### One visit -/

variable {next : α → List α}

/-- The nodes left are listed after what they depend on, the last one first. -/
def Settled (next : α → List α) : List α → Prop
  | [] => True
  | a :: visited => (∀ b ∈ next a, b ∈ visited) ∧ Settled next visited

/-- The nodes that the search is in lead to the last one. -/
def Trail (next : α → List α) : List α → Prop
  | [] => True
  | [_] => True
  | b :: a :: trail => b ∈ next a ∧ Trail next (a :: trail)

/-- From any node of a trail there is a way to its last one. -/
theorem Trail.reaches {a : α} {trail : List α} (h : Trail next (a :: trail)) :
    ∀ b ∈ trail, Relation.TransGen (fun x y => y ∈ next x) b a := by
  induction trail generalizing a with
  | nil => intro b hb; cases hb
  | cons c trail ih =>
      intro b hb
      rcases List.mem_cons.mp hb with rfl | hb
      · exact .single h.1
      · exact (ih h.2 b hb).tail h.1

/-- What a visit leaves as it was. -/
structure Visited (next : α → List α) (s s' : Search α) : Prop where
  visiting : s'.visiting = s.visiting
  settled : Settled next s'.visited
  kept : ∀ b ∈ s.visited, b ∈ s'.visited

/-- The outcome of a visit of `reached`, where only what is `deep` is too deep. -/
def VisitSpec (next : α → List α) (deep : Prop) (reached : List α) (s : Search α) :
    Outcome α → Prop
  | .spent => deep
  | .cycle => ∃ c, Relation.TransGen (fun x y => y ∈ next x) c c
  | .done s' => Visited next s s' ∧ ∀ a ∈ reached, a ∈ s'.visited

theorem visitEach_spec {deep : Prop} {f : α → Search α → Outcome α} {visiting : List α}
    {l : List α} (hf : ∀ a ∈ l, ∀ s, s.visiting = visiting → Settled next s.visited →
      VisitSpec next deep [a] s (f a s)) :
    ∀ s, s.visiting = visiting → Settled next s.visited →
      VisitSpec next deep l s (visitEach f l s) := by
  induction l with
  | nil => exact fun s _ hs => ⟨⟨rfl, hs, fun b hb => hb⟩, fun a ha => by cases ha⟩
  | cons a l ih =>
      intro s hv hs
      have hone := hf a List.mem_cons_self s hv hs
      rw [visitEach]
      cases h : f a s with
      | spent => rw [h] at hone; exact hone
      | cycle => rw [h] at hone; exact hone
      | done s₁ =>
          rw [h] at hone
          obtain ⟨h₁, hin⟩ := hone
          have hrest := ih (fun b hb => hf b (List.mem_cons_of_mem _ hb)) s₁
            (h₁.visiting.trans hv) h₁.settled
          dsimp only
          cases h' : visitEach f l s₁ with
          | spent => rw [h'] at hrest; exact hrest
          | cycle => rw [h'] at hrest; exact hrest
          | done s₂ =>
              rw [h'] at hrest
              obtain ⟨h₂, hin'⟩ := hrest
              refine ⟨⟨h₂.visiting.trans h₁.visiting, h₂.settled,
                fun b hb => h₂.kept b (h₁.kept b hb)⟩, fun b hb => ?_⟩
              rcases List.mem_cons.mp hb with rfl | hb
              · exact h₂.kept b (hin b List.mem_cons_self)
              · exact hin' b hb

/-- A visit goes no deeper than there are nodes, since those that it is in are different ones. -/
theorem visit_spec [DecidableEq α] {depth : Nat} {nodes : List α}
    (hclosed : ∀ a ∈ nodes, ∀ b ∈ next a, b ∈ nodes) :
    ∀ (n : Nat) (a : α) (s : Search α), a ∈ nodes → s.visiting ⊆ nodes → s.visiting.Nodup →
      s.visiting.length + n = depth → Trail next (a :: s.visiting) →
      Settled next s.visited →
      VisitSpec next (depth ≤ nodes.length) [a] s (visit next n a s) := by
  intro n
  induction n with
  | zero =>
      intro a s _ hsub hnd hn _ _
      -- The depth is used up by different nodes.
      have hle : s.visiting.length ≤ nodes.length := (hnd.subperm hsub).length_le
      rwa [← hn]
  | succ n ih =>
      intro a s ha hsub hnd hn htrail hs
      rw [visit]
      by_cases hv : a ∈ s.visiting
      · -- The node is being visited: it closes a cycle.
        rw [if_pos hv]
        exact ⟨a, htrail.reaches a hv⟩
      rw [if_neg hv]
      by_cases hd : a ∈ s.visited
      · rw [if_pos hd]
        refine ⟨⟨rfl, hs, fun b hb => hb⟩, fun b hb => ?_⟩
        rw [List.mem_singleton.mp hb]
        exact hd
      rw [if_neg hd]
      have hall := @visitEach_spec _ next (depth ≤ nodes.length) (visit next n) (a :: s.visiting)
        (next a) (fun b hb t ht hts => ih b t (hclosed a ha b hb)
          (by rw [ht]; exact List.cons_subset.mpr ⟨ha, hsub⟩)
          (by rw [ht]; exact List.nodup_cons.mpr ⟨hv, hnd⟩)
          (by rw [ht, List.length_cons]; omega)
          (by rw [ht]; exact ⟨hb, htrail⟩) hts)
        ⟨a :: s.visiting, s.visited⟩ rfl hs
      cases h : visitEach (visit next n) (next a) ⟨a :: s.visiting, s.visited⟩ with
      | spent => rw [h] at hall; exact hall
      | cycle => rw [h] at hall; exact hall
      | done s₁ =>
          rw [h] at hall
          obtain ⟨h₁, hin⟩ := hall
          refine ⟨⟨?_, ⟨hin, h₁.settled⟩, fun b hb => List.mem_cons_of_mem _ (h₁.kept b hb)⟩,
            fun b hb => ?_⟩
          · rw [h₁.visiting, List.erase_cons_head]
          · rw [List.mem_singleton.mp hb]
            exact List.mem_cons_self

/-! ### The search of all nodes -/

/-- A visit of each node, from nothing, `depth` of them at most one in another. -/
def search [DecidableEq α] (next : α → List α) (depth : Nat) (nodes : List α) : Outcome α :=
  visitEach (visit next depth) nodes ⟨[], []⟩

theorem Settled.append {l r : List α} {a : α} (h : Settled next (l ++ a :: r)) :
    ∀ b ∈ next a, b ∈ r := by
  induction l with
  | nil => exact h.1
  | cons x l ih => exact ih h.2

/-- The nodes left, the first one first, come after what they depend on. -/
theorem Settled.follows {visited : List α} (h : Settled next visited) :
    Follows (fun x y => y ∈ next x) visited.reverse := by
  intro before a after ho b hb
  have hv : visited = after.reverse ++ a :: before.reverse := by
    rw [← List.reverse_reverse visited, ho]
    simp
  rw [hv] at h
  exact List.mem_reverse.mp (h.append b hb)

/-- What a search says that is not too deep is right, and only with as many nodes as the depth
can it be too deep. -/
theorem search_spec [DecidableEq α] {depth : Nat} {nodes : List α}
    (hclosed : ∀ a ∈ nodes, ∀ b ∈ next a, b ∈ nodes)
    (hout : ∀ a, a ∉ nodes → next a = []) :
    (search next depth nodes = .spent ∧ depth ≤ nodes.length) ∨
      (search next depth nodes = .cycle ∧ ¬ Acyclic fun x y => y ∈ next x) ∨
      ∃ s, search next depth nodes = .done s ∧ Acyclic fun x y => y ∈ next x := by
  have h := @visitEach_spec _ next (depth ≤ nodes.length) (visit next depth) [] nodes
    (fun a ha s hs hset => visit_spec hclosed depth a s ha (by rw [hs]; simp)
      (by rw [hs]; simp) (by rw [hs]; simp) (by rw [hs]; trivial) hset) ⟨[], []⟩ rfl trivial
  rw [search]
  cases e : visitEach (visit next depth) nodes ⟨[], []⟩ with
  | spent =>
      rw [e] at h
      exact .inl ⟨rfl, h⟩
  | cycle =>
      rw [e] at h
      obtain ⟨c, hc⟩ := h
      exact .inr (.inl ⟨rfl, fun hacyclic => hacyclic c hc⟩)
  | done s =>
      rw [e] at h
      obtain ⟨hs, hin⟩ := h
      refine .inr (.inr ⟨s, rfl, hs.settled.follows.acyclic fun a b hab => ?_⟩)
      by_cases ha : a ∈ nodes
      · exact List.mem_reverse.mpr (hin a ha)
      · rw [hout a ha] at hab
        cases hab

/-! ### How deep it goes -/

/-- There is a way from one of the list to `b`. -/
def Reached (next : α → List α) (l : List α) (b : α) : Prop :=
  ∃ a ∈ l, Relation.ReflTransGen (fun x y => y ∈ next x) a b

/-- From `l` there is a way of `n + 1` nodes, each but the last of which has no way to it from
`seen` or from what is listed before the way's nodes. -/
def Nests (next : α → List α) : Nat → List α → Set α → Prop
  | 0, l, _ => l ≠ []
  | n + 1, l, seen => ∃ before a after, l = before ++ a :: after ∧ a ∉ seen ∧
      ¬ Reached next before a ∧ Nests next n (next a) (seen ∪ {b | Reached next before b})

theorem reached_cons {a : α} {l : List α} {b : α} :
    Reached next (a :: l) b ↔ Reached next [a] b ∨ Reached next l b := by
  simp [Reached]

theorem reached_self {a b : α} : Reached next [a] b ↔ b = a ∨ Reached next (next a) b := by
  rw [Reached]
  constructor
  · rintro ⟨x, hx, hab⟩
    rw [List.mem_singleton] at hx
    subst hx
    rcases hab.cases_head with rfl | ⟨c, hc, hcb⟩
    · exact .inl rfl
    · exact .inr ⟨c, hc, hcb⟩
  · rintro (rfl | ⟨c, hc, hcb⟩)
    · exact ⟨b, List.mem_singleton_self b, .refl⟩
    · exact ⟨a, List.mem_singleton_self a, .head hc hcb⟩

theorem reached_nil : {b | Reached next [] b} = (∅ : Set α) := by
  ext b
  simp [Reached]

theorem union_reached_cons {a : α} {l : List α} {seen : Set α} :
    seen ∪ {b | Reached next (a :: l) b} =
      seen ∪ {b | Reached next [a] b} ∪ {b | Reached next l b} := by
  ext b
  simp only [Set.mem_union, Set.mem_ofPred_eq, or_assoc]
  rw [reached_cons]

/-- The deep way leads through the first of the list, or comes after it. -/
theorem nests_cons {n : Nat} {a : α} {l : List α} {seen : Set α} :
    Nests next (n + 1) (a :: l) seen ↔ (a ∉ seen ∧ Nests next n (next a) seen) ∨
      Nests next (n + 1) l (seen ∪ {b | Reached next [a] b}) := by
  constructor
  · rintro ⟨before, x, after, hl, hseen, hbefore, hn⟩
    cases before with
    | nil =>
        obtain ⟨rfl, rfl⟩ := List.cons.inj hl
        rw [reached_nil, Set.union_empty] at hn
        exact .inl ⟨hseen, hn⟩
    | cons y before =>
        obtain ⟨rfl, rfl⟩ := List.cons.inj hl
        rw [reached_cons, not_or] at hbefore
        refine .inr ⟨before, x, after, rfl, ?_, hbefore.2, ?_⟩
        · rintro (h | h)
          · exact hseen h
          · exact hbefore.1 h
        · rwa [union_reached_cons] at hn
  · rintro (⟨hseen, hn⟩ | ⟨before, x, after, rfl, hseen, hbefore, hn⟩)
    · refine ⟨[], a, l, rfl, hseen, by simp [Reached], ?_⟩
      rwa [reached_nil, Set.union_empty]
    · rw [Set.mem_union, not_or] at hseen
      refine ⟨a :: before, x, after, rfl, hseen.1, ?_, ?_⟩
      · rw [reached_cons, not_or]
        exact ⟨hseen.2, hbefore⟩
      · rwa [union_reached_cons]

/-- A search that is too deep has gone along a way of the graph. -/
theorem Nests.chain {n : Nat} {l : List α} {seen : Set α} (h : Nests next n l seen) :
    ∃ a ∈ l, ∃ p : List α, p.length = n ∧ (a :: p).IsChain fun x y => y ∈ next x := by
  induction n generalizing l seen with
  | zero =>
      obtain ⟨a, ha⟩ := List.exists_mem_of_ne_nil l h
      exact ⟨a, ha, [], rfl, by simp⟩
  | succ n ih =>
      obtain ⟨before, a, after, rfl, -, -, hn⟩ := h
      obtain ⟨b, hb, p, hp, hchain⟩ := ih hn
      refine ⟨a, by simp, b :: p, by rw [List.length_cons, hp], ?_⟩
      exact List.isChain_cons_cons.mpr ⟨hb, hchain⟩

/-- The nodes left have their ways among themselves. -/
theorem Settled.closed {visited : List α} (h : Settled next visited) {a b : α} (ha : a ∈ visited)
    (hab : Relation.ReflTransGen (fun x y => y ∈ next x) a b) : b ∈ visited := by
  induction hab with
  | refl => exact ha
  | tail _ hbc ih =>
      obtain ⟨l, r, rfl⟩ := List.append_of_mem ih
      exact List.mem_append_right _ (List.mem_cons_of_mem _ (h.append _ hbc))

/-- What visits of `l` do where there is no cycle: they are too deep, or leave what they reach. -/
def Leaves (next : α → List α) (l : List α) (deep : Prop) (s : Search α) : Outcome α → Prop
  | .spent => deep
  | .cycle => False
  | .done s' => ¬ deep ∧ Visited next s s' ∧
      ∀ b, b ∈ s'.visited ↔ b ∈ s.visited ∨ Reached next l b

theorem visitEach_leaves {n : Nat} {f : α → Search α → Outcome α} {visiting : List α} {l : List α}
    (hf : ∀ a ∈ l, ∀ s, s.visiting = visiting → Settled next s.visited →
      Leaves next [a] (n = 0 ∨ a ∉ s.visited ∧ Nests next (n - 1) (next a) {b | b ∈ s.visited}) s
        (f a s)) :
    ∀ s, s.visiting = visiting → Settled next s.visited →
      Leaves next l (Nests next n l {b | b ∈ s.visited}) s (visitEach f l s) := by
  induction l with
  | nil =>
      intro s _ hs
      refine ⟨?_, ⟨rfl, hs, fun b hb => hb⟩, fun b => by simp [Reached]⟩
      cases n with
      | zero => exact fun h => h rfl
      | succ n =>
          rintro ⟨before, a, after, hl, -⟩
          simp at hl
  | cons a l ih =>
      intro s hv hs
      have hone := hf a List.mem_cons_self s hv hs
      -- A way too deep starts at the first node, or at a later one and off what the first reaches.
      have hdeep : Nests next n (a :: l) {b | b ∈ s.visited} ↔
          (n = 0 ∨ a ∉ s.visited ∧ Nests next (n - 1) (next a) {b | b ∈ s.visited}) ∨
            Nests next n l ({b | b ∈ s.visited} ∪ {b | Reached next [a] b}) := by
        cases n with
        | zero => simp [Nests]
        | succ n =>
            rw [nests_cons]
            simp
      rw [visitEach, hdeep]
      cases h : f a s with
      | spent => rw [h] at hone; exact .inl hone
      | cycle => rw [h] at hone; exact hone
      | done s₁ =>
          rw [h] at hone
          obtain ⟨hnot, h₁, hin⟩ := hone
          have hrest := ih (fun b hb => hf b (List.mem_cons_of_mem _ hb)) s₁
            (h₁.visiting.trans hv) h₁.settled
          have hseen : {b | b ∈ s₁.visited} =
              {b | b ∈ s.visited} ∪ {b | Reached next [a] b} := by
            ext b
            exact hin b
          rw [hseen] at hrest
          dsimp only
          cases h' : visitEach f l s₁ with
          | spent => rw [h'] at hrest; exact .inr hrest
          | cycle => rw [h'] at hrest; exact hrest
          | done s₂ =>
              rw [h'] at hrest
              obtain ⟨hnot', h₂, hin'⟩ := hrest
              refine ⟨not_or.mpr ⟨hnot, hnot'⟩, ⟨h₂.visiting.trans h₁.visiting, h₂.settled,
                fun b hb => h₂.kept b (h₁.kept b hb)⟩, fun b => ?_⟩
              rw [hin' b, hin b, or_assoc, ← reached_cons]

/-- In a graph without cycles a visit is too deep exactly where a deep way starts. -/
theorem visit_leaves [DecidableEq α] (hacyclic : Acyclic fun x y => y ∈ next x) :
    ∀ (n : Nat) (a : α) (s : Search α), Trail next (a :: s.visiting) → Settled next s.visited →
      Leaves next [a] (n = 0 ∨ a ∉ s.visited ∧ Nests next (n - 1) (next a) {b | b ∈ s.visited}) s
        (visit next n a s) := by
  intro n
  induction n with
  | zero => exact fun a s _ _ => .inl rfl
  | succ n ih =>
      intro a s htrail hs
      rw [visit]
      have hv : a ∉ s.visiting := fun hv => hacyclic a (htrail.reaches a hv)
      rw [if_neg hv]
      by_cases hd : a ∈ s.visited
      · rw [if_pos hd]
        refine ⟨by simp [hd], ⟨rfl, hs, fun b hb => hb⟩, fun b => ⟨.inl, ?_⟩⟩
        rintro (hb | ⟨x, hx, hab⟩)
        · exact hb
        · rw [List.mem_singleton.mp hx] at hab
          exact hs.closed hd hab
      rw [if_neg hd]
      have hall := @visitEach_leaves _ next n (visit next n) (a :: s.visiting) (next a)
        (fun b hb t ht hts => ih b t (by rw [ht]; exact ⟨hb, htrail⟩) hts)
        ⟨a :: s.visiting, s.visited⟩ rfl hs
      cases h : visitEach (visit next n) (next a) ⟨a :: s.visiting, s.visited⟩ with
      | spent => rw [h] at hall; exact .inr ⟨hd, hall⟩
      | cycle => rw [h] at hall; exact hall
      | done s₁ =>
          rw [h] at hall
          obtain ⟨hnot, h₁, hin⟩ := hall
          refine ⟨?_, ⟨?_, ⟨fun b hb => (hin b).mpr (.inr ⟨b, hb, .refl⟩), h₁.settled⟩,
            fun b hb => List.mem_cons_of_mem _ (h₁.kept b hb)⟩, fun b => ?_⟩
          · rintro (h0 | ⟨-, hdeep⟩)
            · cases h0
            · exact hnot hdeep
          · rw [h₁.visiting, List.erase_cons_head]
          · rw [List.mem_cons, hin b, reached_self]
            tauto

/-- In a graph without cycles the search is too deep exactly where there is a deep way. -/
theorem search_spent [DecidableEq α] {depth : Nat} {nodes : List α}
    (hacyclic : Acyclic fun x y => y ∈ next x) :
    search next depth nodes = .spent ↔ Nests next depth nodes ∅ := by
  have h := @visitEach_leaves _ next depth (visit next depth) [] nodes
    (fun a _ s hs hset => visit_leaves hacyclic depth a s (by rw [hs]; trivial) hset)
    ⟨[], []⟩ rfl trivial
  have hnone : {b : α | b ∈ ([] : List α)} = (∅ : Set α) := by
    ext b
    simp
  rw [hnone] at h
  rw [search]
  cases e : visitEach (visit next depth) nodes ⟨[], []⟩ with
  | spent => rw [e] at h; exact ⟨fun _ => h, fun _ => rfl⟩
  | cycle => rw [e] at h; exact h.elim
  | done s =>
      rw [e] at h
      refine ⟨fun h' => ?_, fun hn => absurd hn h.1⟩
      cases h'

end Orchestrator.Graphs
