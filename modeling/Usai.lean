import Usai.Revisions.ActivePointer
import Usai.Revisions.CompareAndSwap
import Usai.Revisions.Schedulers
import Usai.Revisions.Rollback
import Usai.Admission.Retirement
import Usai.Execution.Delivery
import Usai.Queue.Marks
import Usai.Queue.Locks
import Usai.Postgres.Reuse
import Usai.Services.Exclusion
import Usai.Outbound.Client
import Usai.Migrations.Ordered
import Usai.Resources.Owned
import Usai.Postgres.Protocol
import Usai.Postgres.Confidential
import Usai.Queue.Publish
import Usai.Queue.Worlds
import Usai.Tasks.Conserved
import Usai.Environment.Soundness
import Usai.Schemas.Shortcut
import Usai.Schemas.Quiet
import Usai.Cron.Occurrences
import Usai.Cron.Replicas
import Usai.Http.Sanitized
import Usai.Http.LostWork
import Usai.Execution.Deadline
import Usai.Sockets.Pump
import Usai.Build.Binding
import Usai.Postgres.Guard
import Usai.Postgres.Fidelity
import Usai.Revisions.Headers
import Usai.Revisions.Installs
import Usai.Execution.Faults
import Usai.Execution.Hashing
import Usai.Execution.Settle
import Usai.Execution.Sleep
import Usai.Execution.Timers
import Usai.Execution.Watchdog
import Usai.Http.Chunks
import Usai.Http.Dispatch
import Usai.Http.Rejections
import Usai.Http.Sending
import Usai.Resources.Preparation
import Usai.Revisions.DrainWait
import Usai.Revisions.Stranding
import Usai.Bridge.Utf8
import Usai.Cli.Logfmt
import Usai.Http.Query
import Usai.Execution.Staging
