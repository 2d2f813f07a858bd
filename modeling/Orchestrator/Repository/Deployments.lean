import Orchestrator.Repository.InMemory
import Orchestrator.Stores.Latest

/-!
# Repository — the stores of the deployment records

`save_service` and `list_services` of both repositories.  In memory a record is filed under its
`service_id`; MongoDB replaces the document with its application, build and service name, which
is what its unique index is on.  The order of the listings, by creation time in MongoDB, is left
out.

* `services_agree`: the listings are the same after a sequence of saves, exactly if every save is
  superseded by one with its `service_id` whenever it is by one for its service, and conversely.
-/

namespace Orchestrator
open Stores

/-- The key of the unique index on the `services` collection. -/
def DeploymentService.key (r : DeploymentService) : String × BuildId × String :=
  (r.appid, r.buildId, r.serviceName)

/-- The `services` collection, by its unique index. -/
abbrev ServiceCollection := Table (String × BuildId × String) DeploymentService

namespace MongoRepository

/-- `replace_one({"appid": …, "build_id": …, "service_name": …}, document, upsert=True)`. -/
def saveService (s : ServiceCollection) (r : DeploymentService) : ServiceCollection :=
  s.insert r.key r

/-- `find({"appid": appid})`. -/
def listServices (s : ServiceCollection) (appid : String) : List DeploymentService :=
  s.values.filter fun r => r.appid == appid

/-- What is listed after a sequence of saves. -/
theorem mem_listServices (saves : List DeploymentService) (appid : String)
    (r : DeploymentService) : r ∈ listServices (saves.foldl saveService ∅) appid ↔
      r.appid = appid ∧ Latest DeploymentService.key saves r := by
  rw [listServices, List.mem_filter, and_comm, beq_iff_eq]
  exact and_congr_right fun _ => saveAll_values DeploymentService.key saves r

end MongoRepository

namespace InMemoryRepository

theorem saveService_services (saves : List DeploymentService) (s : Repository) :
    (saves.foldl saveService s).services =
      saves.foldl (fun t r => t.insert r.serviceId r) s.services := by
  induction saves generalizing s with
  | nil => rfl
  | cons r saves ih => exact ih (saveService s r)

/-- What is listed after a sequence of saves. -/
theorem mem_listServices (saves : List DeploymentService) (appid : String)
    (r : DeploymentService) : r ∈ listServices (saves.foldl saveService {}) appid ↔
      r.appid = appid ∧ Latest DeploymentService.serviceId saves r := by
  rw [listServices, List.mem_filter, and_comm, beq_iff_eq, saveService_services]
  exact and_congr_right fun _ => saveAll_values DeploymentService.serviceId saves r

end InMemoryRepository

/-- **Deployment records.**  After a sequence of saves the two repositories list the same records
of an application, exactly if every save of it is followed by one with the same `service_id`
whenever it is followed by one of the same application, build and service name, and conversely. -/
theorem services_agree (saves : List DeploymentService) (appid : String) :
    (∀ r, r ∈ InMemoryRepository.listServices (saves.foldl InMemoryRepository.saveService {}) appid ↔
      r ∈ MongoRepository.listServices (saves.foldl MongoRepository.saveService ∅) appid) ↔
    ∀ pre r post, saves = pre ++ r :: post → r.appid = appid →
      ((∃ s ∈ post, s.serviceId = r.serviceId) ↔
        ∃ s ∈ post, s.appid = r.appid ∧ s.buildId = r.buildId ∧ s.serviceName = r.serviceName) := by
  simp only [InMemoryRepository.mem_listServices, MongoRepository.mem_listServices,
    and_congr_right_iff]
  rw [latest_agree_iff]
  simp only [Superseded, DeploymentService.key, Prod.mk.injEq]

/-- A service that is created again under a new identifier, in the same build. -/
theorem services_agree_recreated : ¬ ∀ (saves : List DeploymentService) (appid : String)
    (r : DeploymentService),
    r ∈ InMemoryRepository.listServices (saves.foldl InMemoryRepository.saveService {}) appid ↔
      r ∈ MongoRepository.listServices (saves.foldl MongoRepository.saveService ∅) appid := by
  intro h
  let old : DeploymentService := ⟨"old", "app", ⟨0, 0⟩, "web", "app:web", "deployed", none, []⟩
  let new : DeploymentService := ⟨"new", "app", ⟨0, 0⟩, "web", "app:web", "deployed", none, []⟩
  have hboth := h [old, new] "app" old
  revert hboth
  decide

end Orchestrator
