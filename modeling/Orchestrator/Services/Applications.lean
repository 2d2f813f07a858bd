import Orchestrator.Services.RouteChecks

/-!
# Services — applications

The two functions of `ApplicationService` that write the record of an application.  A direct edit
of the Compose document, the repository or the reference takes back the claim that the document
mirrors a file of the repository; a synchronisation makes it.
-/

namespace Orchestrator
open Interleaving

/-- The fields `update_app` writes for a request. -/
def updateFields (request : AppFields) : AppFields :=
  if request.compose.Untouched ∧ request.repositoryUrl.Untouched ∧ request.gitRef.Untouched then
    { request with composeSourceFile := .keep, composeSourceCommit := .keep }
  else { request with composeSourceFile := .set none, composeSourceCommit := .set none }

/-- `ApplicationService.update_app`. -/
def updateApp (S : Settings) (appid : String) (request : AppFields) : P Unit := do
  match ← call (.getApp appid) with
  | none => fault .notFound "App not found"
  | some current =>
      let fields := updateFields request
      let candidate := current.modelCopy fields
      let commit ← (if falsy candidate.requireRoute then .ret none else do
        let commit ← RouteCheckService.resolveCommit S candidate none
        return some commit : P (Option String))
      match ← call (.updateApp appid fields) with
      | none => fault .notFound "App not found"
      | some updated =>
          if falsy updated.requireRoute then return ()
          else
            let commit ← (match commit with
              | some commit => .ret commit
              | none => RouteCheckService.resolveCommit S updated none : P String)
            let _ ← RouteCheckService.createOrReuse updated commit false
            return ()

/-- A Compose document as it was found in a repository. -/
structure ComposeDocument where
  path : String
  compose : Compose
  commitSha : String

/-- `discover_compose` of a resolved reference. -/
def discoverCompose (url commit : String) : P ComposeDocument := do
  let (path, compose) ← orRaise (call (.discoverCompose url commit))
  return ⟨path, compose, commit⟩

/-- The fields `sync_app` writes. -/
def syncFields (discovered : ComposeDocument) : AppFields where
  compose := .set (some discovered.compose)
  composeSourceFile := .set (some discovered.path)
  composeSourceCommit := .set (some discovered.commitSha)

/-- `ApplicationService.sync_app`: the new record, the document, whether the Compose document has
changed, and the commit it came from before. -/
def syncApp (S : Settings) (appid : String) :
    P (UserAppRecord × ComposeDocument × Bool × Option String) := do
  match ← call (.getApp appid) with
  | none => fault .notFound "App not found"
  | some app =>
      if S.gitlab = false then fault .runtimeError "GitLab integration is not configured"
      else
        let resolved ← orRaise (call (.validateRepositoryRef app.repositoryUrl app.gitRef))
        let discovered ← discoverCompose app.repositoryUrl resolved
        let changed := app.compose != some discovered.compose
        match ← call (.updateApp appid (syncFields discovered)) with
        | none => fault .notFound "App not found"
        | some updated =>
            if falsy updated.requireRoute then
              return (updated, discovered, changed, app.composeSourceCommit)
            else
              let _ ← RouteCheckService.createOrReuse updated resolved false
              return (updated, discovered, changed, app.composeSourceCommit)

end Orchestrator
