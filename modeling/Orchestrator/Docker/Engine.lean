import Mathlib.Data.List.Nodup
import Mathlib.Tactic.Simps.Basic

/-!
# Docker — an engine and its objects

What the Docker SDK shows of an engine: collections of objects with identifiers, names and
labels, and the requests that read and change them.

* `Objects`: a collection, in which an identifier occurs once.
* `DockerOp`, `DockerOp.Ret`: the requests and their results.  Every request may raise.
* `Engine.Acts`: what a request may answer, and what it does.  One that raises may have taken
  effect or not.

The `attrs` of an object are kept as far as the modelled code reads them, and one record serves
for all the collections.
-/

namespace Orchestrator

/-! ### Objects -/

abbrev Labels := List (String × String)

namespace Labels

/-- `labels.get(key)`. -/
def get (l : Labels) (key : String) : Option String := l.lookup key

/-- `labels.update(extra)`. -/
def update (l extra : Labels) : Labels := extra ++ l.filter fun e => (extra.lookup e.1).isNone

end Labels

/-- An entry of `Mounts`. -/
structure EngineMount where
  type : String
  source : String
  target : String
  readOnly : Bool := false
  deriving DecidableEq, Repr

structure EnginePort where
  published : Option Nat
  protocol : String := "tcp"
  mode : String := "ingress"
  deriving DecidableEq, Repr

/-- An entry of `service.tasks()`. -/
structure SwarmTask where
  containerId : Option String := none
  nodeId : Option String := none
  state : String := "unknown"
  desiredState : String := "running"
  error : Option String := none
  deriving DecidableEq, Repr

structure DockerObject where
  id : String
  name : String
  labels : Labels := []
  /-- `CreatedAt` of a volume. -/
  createdAt : Option String := none
  /-- `status` of a container. -/
  status : String := ""
  /-- `Image` of a container or of the containers of a service. -/
  image : String := ""
  /-- The image a container was made from. -/
  imageId : String := ""
  mounts : List EngineMount := []
  /-- The targets of the networks a service is attached to. -/
  networks : List String := []
  /-- The containers attached to a network. -/
  attached : List String := []
  ports : List EnginePort := []
  /-- The references of an image. -/
  tags : List String := []
  /-- `Replicas` of a replicated service. -/
  replicas : Option Nat := none
  deriving DecidableEq, Repr

namespace DockerObject

/-- The engine finds an object by its identifier, by its name, or by a reference. -/
def answersTo (o : DockerObject) (identifier : String) : Prop :=
  o.id = identifier ∨ o.name = identifier ∨ identifier ∈ o.tags

instance (o : DockerObject) (identifier : String) : Decidable (o.answersTo identifier) :=
  inferInstanceAs (Decidable (_ ∨ _))

end DockerObject

/-- The objects of one kind: no two have the same identifier. -/
structure Objects where
  list : List DockerObject
  nodup : (list.map DockerObject.id).Nodup

namespace Objects

instance : Membership DockerObject Objects := ⟨fun s o => o ∈ s.list⟩

theorem mem_def {s : Objects} {o : DockerObject} : o ∈ s ↔ o ∈ s.list := Iff.rfl

def empty : Objects := ⟨[], List.nodup_nil⟩

/-- `o`, under an identifier of its own. -/
def insert (s : Objects) (o : DockerObject) (h : ∀ x ∈ s, x.id ≠ o.id) : Objects where
  list := s.list ++ [o]
  nodup := by
    rw [List.map_append, List.nodup_append]
    refine ⟨s.nodup, List.nodup_singleton _, fun i hi j hj => ?_⟩
    obtain ⟨x, hx, rfl⟩ := List.mem_map.mp hi
    obtain rfl : j = o.id := List.mem_singleton.mp hj
    exact h x hx

def erase (s : Objects) (id : String) : Objects where
  list := s.list.filter (·.id != id)
  nodup := s.nodup.sublist (List.filter_sublist.map _)

/-- Without `reference`, and without the images it was the last reference of. -/
def untag (s : Objects) (reference : String) : Objects where
  list := (s.list.filter fun o => !(reference ∈ o.tags && o.tags.all (· == reference))).map
    fun o => { o with tags := o.tags.filter (· != reference) }
  nodup := by
    rw [List.map_map]
    exact s.nodup.sublist (List.filter_sublist.map _)

/-- `f` on the object with this identifier. -/
def modify (s : Objects) (id : String) (f : DockerObject → DockerObject)
    (hf : ∀ o, (f o).id = o.id) : Objects where
  list := s.list.map fun o => if o.id = id then f o else o
  nodup := by
    have : (s.list.map fun o => if o.id = id then f o else o).map DockerObject.id =
        s.list.map DockerObject.id := by
      rw [List.map_map]
      refine List.map_congr_left fun o _ => ?_
      by_cases h : o.id = id
      · simp [h, hf]
      · simp [h]
    rw [this]
    exact s.nodup

variable {s : Objects} {o x : DockerObject} {id : String}

/-- Objects with the same identifier are the same. -/
theorem eq_of_id (ho : o ∈ s) (hx : x ∈ s) (h : o.id = x.id) : o = x :=
  List.inj_on_of_nodup_map s.nodup ho hx h

@[simp] theorem mem_insert {h : ∀ x ∈ s, x.id ≠ o.id} : x ∈ s.insert o h ↔ x ∈ s ∨ x = o := by
  simp [mem_def, insert]

@[simp] theorem mem_erase : x ∈ s.erase id ↔ x ∈ s ∧ x.id ≠ id := by
  simp [mem_def, erase]

end Objects

/-! ### Requests -/

inductive Collection where
  | services | networks | volumes | containers | images
  deriving DecidableEq, Repr

/-- The `filters` of a listing. -/
inductive DockerFilter where
  | all
  | labels (l : Labels)
  | volume (name : String)
  | ancestor (image : String)
  | network (name : String)

namespace DockerFilter

def holds : DockerFilter → DockerObject → Bool
  | all, _ => true
  | labels l, o => l.all fun e => o.labels.get e.1 == some e.2
  | volume name, o => o.mounts.any fun m => m.type == "volume" && m.source == name
  | ancestor image, o => o.imageId == image
  | network name, o => name ∈ o.networks

end DockerFilter

inductive DockerError where
  | notFound
  | failed (explanation : String)
  deriving DecidableEq, Repr

/-- What `client.info()` says. -/
structure EngineInfo where
  id : Option String
  nodeId : Option String
  deriving DecidableEq, Repr

inductive DockerOp where
  | info
  | get (k : Collection) (identifier : String)
  | list (k : Collection) (filter : DockerFilter)
  /-- `create`, of an object like this one. -/
  | create (k : Collection) (spec : DockerObject)
  /-- `update`, of a service to one like this. -/
  | update (id : String) (spec : DockerObject)
  | remove (k : Collection) (id : String)
  /-- `images.remove(reference, force=False, noprune=True)`. -/
  | untag (reference : String)
  | tasks (id : String)

@[reducible] def DockerOp.Ret : DockerOp → Type
  | info => Except DockerError EngineInfo
  | get .. | create .. => Except DockerError DockerObject
  | list .. => Except DockerError (List DockerObject)
  | update .. | remove .. | untag _ => Except DockerError Unit
  | tasks _ => Except DockerError (List SwarmTask)

/-! ### The engine -/

structure Engine where
  id : Option String
  nodeId : Option String
  objects : Collection → Objects

namespace Engine

/-- The engine with other objects of one kind. -/
def set (g : Engine) (k : Collection) (s : Objects) : Engine :=
  { g with objects := fun k' => if k' = k then s else g.objects k' }

@[simp] theorem set_objects (g : Engine) (k k' : Collection) (s : Objects) :
    (g.set k s).objects k' = if k' = k then s else g.objects k' := rfl

/-- What an update leaves of a service: its identifier and its name. -/
def updated (spec o : DockerObject) : DockerObject := { spec with id := o.id, name := o.name }

/-- A request to create `spec` has had its effect: a new object, or for a volume of a known
name, none. -/
def Created (g : Engine) (k : Collection) (spec o : DockerObject) (g' : Engine) : Prop :=
  (k = .volumes ∧ o ∈ g.objects .volumes ∧ o.name = spec.name ∧ g' = g) ∨
  ∃ h : ∀ x ∈ g.objects k, x.id ≠ o.id,
    o = { spec with id := o.id, createdAt := o.createdAt } ∧ (k = .volumes → o.id = o.name) ∧
    g' = g.set k ((g.objects k).insert o h)

/-- The effect of a request that changes something. -/
def effect (g : Engine) : DockerOp → Engine
  | .update id spec => g.set .services ((g.objects .services).modify id (updated spec) fun _ => rfl)
  | .remove k id => g.set k ((g.objects k).erase id)
  | .untag reference => g.set .images ((g.objects .images).untag reference)
  | _ => g

/-- What a request may answer, and what it does. -/
def Acts (g : Engine) : (op : DockerOp) → op.Ret → Engine → Prop
  | .info, r, g' => g' = g ∧ ∀ i, r = .ok i → i = ⟨g.id, g.nodeId⟩
  | .get k i, r, g' => g' = g ∧ ∀ o, r = .ok o → o ∈ g.objects k ∧ o.answersTo i
  | .list k f, r, g' => g' = g ∧ ∀ l, r = .ok l → l = (g.objects k).list.filter f.holds
  | .create k spec, r, g' =>
      (∃ o, g.Created k spec o g' ∧ ∀ x, r = .ok x → x = o) ∨ (r.isOk = false ∧ g' = g)
  | .tasks _, _, g' => g' = g
  | op@(.update _ _), r, g' | op@(.remove _ _), r, g' | op@(.untag _), r, g' =>
      g' = g.effect op ∨ (r.isOk = false ∧ g' = g)

end Engine

end Orchestrator
