import AgentStorm.Results.Objects
import AgentStorm.Controller.Pods
import AgentStorm.Results.Requests
import AgentStorm.Worker.Snapshot
import AgentStorm.Worker.Execute
import AgentStorm.Worker.Pricing
import AgentStorm.Results.Migrations
import AgentStorm.Promptfoo.Replay
import AgentStorm.Controller.Target
import AgentStorm.Controller.Isolation
import AgentStorm.Controller.Snapshots
import AgentStorm.Results.Storable
import AgentStorm.Results.Normal
import AgentStorm.Controller.Labels
import AgentStorm.Controller.Quotas
import AgentStorm.Worker.Sanitizer
import AgentStorm.Promptfoo.Generate
import AgentStorm.Worker.Faults
import AgentStorm.Worker.Limiter
import AgentStorm.Worker.Thresholds
import AgentStorm.Worker.Circuit
import AgentStorm.Worker.Lifecycle
import AgentStorm.Results.Ranges
import AgentStorm.Controller.Verdict
