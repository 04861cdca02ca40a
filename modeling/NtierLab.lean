import NtierLab.ControlPlane.Promise
import NtierLab.ControlPlane.Stale
import NtierLab.ControlPlane.Server
import NtierLab.ControlPlane.Gate
import NtierLab.ControlPlane.Teardown
import NtierLab.Postgres.Isolation
import NtierLab.ControlPlane.Versions
import NtierLab.ControlPlane.Coherent
import NtierLab.ControlPlane.Sweep
import NtierLab.Postgres.Session
import NtierLab.Postgres.PodIsolation
import NtierLab.ControlPlane.Retry
import NtierLab.ControlPlane.Leftovers
import NtierLab.ControlPlane.Active
import NtierLab.ControlPlane.Cutting
import NtierLab.ControlPlane.Absence
import NtierLab.ControlPlane.Restart
import NtierLab.ControlPlane.Trust
import NtierLab.Postgres.Login
import NtierLab.Edge.Admission
import NtierLab.Postgres.Reuse
import NtierLab.ControlPlane.Sqlite
import NtierLab.ControlPlane.Failures
import NtierLab.Prog.History
import NtierLab.ControlPlane.Identity
import NtierLab.ControlPlane.Neighbour
import NtierLab.ControlPlane.Safety
import NtierLab.ControlPlane.Retryable
import NtierLab.Edge.Routing
import NtierLab.Postgres.LabUsers
import NtierLab.ControlPlane.Render
import NtierLab.Prog.Jobs
import NtierLab.ControlPlane.JobTable
import NtierLab.Postgres.Serving
import NtierLab.Postgres.Conserved
import NtierLab.ControlPlane.Adoption
import NtierLab.ControlPlane.MigrateOnce
import NtierLab.Text.Lines
import NtierLab.ControlPlane.Tfvars
import NtierLab.Edge.NetworkPolicy
import NtierLab.Prog.Twin
import NtierLab.Postgres.Opaque
import NtierLab.ControlPlane.Tenants
import NtierLab.ControlPlane.LeastPrivilege
import NtierLab.Prog.Granted
import NtierLab.ControlPlane.Http
import NtierLab.Postgres.Dropping
import NtierLab.ControlPlane.Unnamed
import NtierLab.ControlPlane.Cli
import NtierLab.Postgres.Acknowledged
import NtierLab.ControlPlane.Suspended
import NtierLab.Postgres.Exclusive
