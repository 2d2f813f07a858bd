import Orchestrator.Interleaving.Program
import Orchestrator.Interleaving.Machine
import Orchestrator.Interleaving.Lease
import Orchestrator.Models.Scalars
import Orchestrator.Models.JsonText
import Orchestrator.Models.Resources
import Orchestrator.Models.Builds
import Orchestrator.Repository.InMemory
import Orchestrator.Repository.Mongo
import Orchestrator.Repository.Fencing
import Orchestrator.Stores.Latest
import Orchestrator.Repository.Deployments
import Orchestrator.Runtime.Calls
import Orchestrator.Runtime.Effects
import Orchestrator.Runtime.Settings
import Orchestrator.Services.Leases
import Orchestrator.Services.Builds
import Orchestrator.Services.Cleanup
import Orchestrator.Services.RouteChecks
import Orchestrator.Services.Applications
import Orchestrator.Services.QueueBuild
import Orchestrator.Services.DynamicChecks
import Orchestrator.Services.Worker
import Orchestrator.Runtime.Tasks
import Orchestrator.Runtime.Sample
import Orchestrator.Discipline.Deeds
import Orchestrator.Discipline.Footprints
import Orchestrator.Discipline.Checking
import Orchestrator.Discipline.Deliveries
import Orchestrator.Discipline.Tasking
import Orchestrator.Discipline.Conduct
import Orchestrator.Discipline.Sessions
import Orchestrator.RouteChecks.Roles
import Orchestrator.RouteChecks.Generations
import Orchestrator.Applications.Provenance
import Orchestrator.Cleanup.Cycle
import Orchestrator.Cleanup.Gate
import Orchestrator.Lifecycle.Creation
import Orchestrator.Lifecycle.Stages
import Orchestrator.Lifecycle.Alerts
import Orchestrator.Lifecycle.Budget
import Orchestrator.Cleanup.Teardown
import Orchestrator.Interleaving.Interpretation
import Orchestrator.Models.Texts
import Orchestrator.Models.Documents
import Orchestrator.Docker.Engine
import Orchestrator.Docker.Naming
import Orchestrator.Docker.Host
import Orchestrator.Docker.Cleaner
import Orchestrator.Docker.Footprints
import Orchestrator.Models.Decimals
import Orchestrator.Models.Fallible
import Orchestrator.Docker.Compose
import Orchestrator.Docker.Deploy
import Orchestrator.Docker.Rollout
import Orchestrator.Docker.RolloutFootprints
import Orchestrator.Docker.Ports
import Orchestrator.Docker.Playback
import Orchestrator.Docker.Allocation
import Orchestrator.Docker.Workspaces
import Orchestrator.Docker.SourceCompose
import Orchestrator.Docker.Pipeline
import Orchestrator.Cleanup.Custody
import Orchestrator.Cleanup.Order
import Orchestrator.Text.Addresses
import Orchestrator.Text.Percent
import Orchestrator.Text.Replace
import Orchestrator.Text.Base64
import Orchestrator.Probes.Routes
import Orchestrator.Probes.JsonPaths
import Orchestrator.Probes.Payloads
import Orchestrator.Probes.Normalized
import Orchestrator.Probes.Redaction
import Orchestrator.Probes.Client
import Orchestrator.Probes.Retries
import Orchestrator.Probes.Destinations
import Orchestrator.Probes.Secrecy
import Orchestrator.RouteChecks.Attribution
import Orchestrator.Text.Sha256
import Orchestrator.Docker.Repositories
import Orchestrator.Docker.Namespaces
import Orchestrator.Docker.BoundedNames
import Orchestrator.Graphs.Acyclic
import Orchestrator.Graphs.Search
import Orchestrator.Docker.Ordering
import Orchestrator.Models.Mappings
import Orchestrator.Models.Outcomes
import Orchestrator.Templates.Catalog
import Orchestrator.Templates.Composition
import Orchestrator.Templates.Cycles
import Orchestrator.Templates.Reordering
import Orchestrator.Templates.ServiceNames
import Orchestrator.Docker.Handed
import Orchestrator.Docker.VolumeNames
import Orchestrator.Templates.Volumes
import Orchestrator.Docker.Placeholders
import Orchestrator.Files.Trees
import Orchestrator.Docker.Uploads
import Orchestrator.Text.Patterns
import Orchestrator.Diagnostics.Redaction
import Orchestrator.Diagnostics.Lines
import Orchestrator.Templates.VolumeIdentities
import Orchestrator.Registry.Synchronizer
import Orchestrator.Registry.Identity
import Orchestrator.Probes.Assertions
import Orchestrator.Text.Utf8
import Orchestrator.Text.SplitLines
import Orchestrator.Diagnostics.BuildLogs
import Orchestrator.Interleaving.Rely
import Orchestrator.Docker.Observing
import Orchestrator.Manifests.Site
import Orchestrator.Manifests.Watch
import Orchestrator.Manifests.Tending
import Orchestrator.Manifests.Removal
import Orchestrator.Manifests.Leases
import Orchestrator.Manifests.Identities
import Orchestrator.Cleanup.Conclusions
import Orchestrator.Text.Urls
import Orchestrator.Docker.BuildNames
import Orchestrator.Text.Nesting
import Orchestrator.Models.Floats
import Orchestrator.Diagnostics.Sites
