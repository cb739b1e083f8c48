import CrmAutomation.Settings

/-!
# Background tasks

The two tasks that the worker takes from its queues, and the settings that it runs under.
-/

namespace CrmAutomation.Worker

/-- What the worker can do. -/
inductive Task where
  | event
  | sweep
  deriving DecidableEq, Repr

namespace Task

def all : List Task := [.event, .sweep]

def module : Task → String
  | .event => "worker.tasks.events"
  | .sweep => "worker.tasks.scheduler"

def name : Task → String
  | .event => Task.module .event ++ ".process_pipeline_event"
  | .sweep => Task.module .sweep ++ ".sweep_due_runs"

/-- How often a failed task is tried again. -/
def maxRetries : Task → Int
  | .event => 3
  | .sweep => 2

/-- The seconds before another try. -/
def retryDelay : Task → Int
  | .event => 10
  | .sweep => 15

def queue : Task → String
  | .event => "events"
  | .sweep => "scheduler"

end Task

/-- The queue of tasks that have none of their own. -/
def defaultQueue : String := "default"

/-- The queues by the names of tasks. -/
def routes : Members :=
  Task.all.map (fun t => (t.module ++ ".*", Value.obj [("queue", .str t.queue)]))
    ++ [("worker.tasks.*", .obj [("queue", .str defaultQueue)])]

/-- The task that is started again and again. -/
def schedule (s : Settings) : Members :=
  [("sweep-due-runs", .obj [("task", .str (Task.name .sweep)), ("schedule", .float s.sweepInterval),
    ("options", .obj [("queue", .str (Task.queue .sweep))])])]

/-- The settings of the worker. -/
def configuration (s : Settings) : Members :=
  [("task_serializer", .str "json"), ("accept_content", .list [.str "json"]),
    ("result_serializer", .str "json"), ("timezone", .str "UTC"), ("enable_utc", .bool true),
    ("task_routes", .obj routes), ("task_default_queue", .str defaultQueue),
    ("result_expires", .int 86400), ("task_soft_time_limit", .int 300),
    ("task_time_limit", .int 600), ("task_acks_late", .bool true),
    ("worker_prefetch_multiplier", .int 1), ("task_reject_on_worker_lost", .bool true),
    ("task_acks_on_failure_or_timeout", .bool true), ("beat_schedule", .obj (schedule s))]

end CrmAutomation.Worker
