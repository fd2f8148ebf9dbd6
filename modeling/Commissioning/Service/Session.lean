import Commissioning.Service.Task

/-!
Sessions: calls of services that run side by side on one clock. Between two waits a task runs alone;
then the task that wakes first goes on. A call whose lock is held is refused at once; else it takes
the lock before its first wait and gives it back when it ends, is given up or fails.

    tasks ──earliest?──▶ task ── start, resume or cancel ──▶ tasks ──▶ … ──▶ all ended
-/
namespace Commissioning

/-- What services share, and the tasks on their way. -/
structure Session where
  hub : Hub
  hasGateway : Bool
  verbose : Bool
  /-- The data of this program before any lock. -/
  data : Entries
  tables : LockTables
  events : List Event
  tasks : List Task

namespace Session

/-- Writes lines to the log. -/
def write (s : Session) (lines : Log) : Session := { s with hub := s.hub.write lines }

/-- Puts the lock of a key into another state. -/
def setLock (s : Session) (k : LockKey) (l : Lock) : Session := { s with tables := s.tables.put k l }

/-- Gives back the lock of a job, if it has taken one. -/
def release (s : Session) (j : Job) : Session :=
  match j.lock? with
  | some (_, key) => s.setLock key .free
  | none => s

/-- The end of a job: the log and the events tell about it. -/
def conclude (s : Session) (j : Job) (began : Nat) (outcome : Outcome Entries) : Session :=
  { s.write (j.endLog outcome) with
    events := s.events ++ (j.event? began s.hub.now outcome).toList }

/-- Where a job stands once its activity has gone on. -/
def settle (s : Session) (j : Job) (began : Nat) (r : Activity Entries × Hub) : Stage × Session :=
  let s := { s with hub := r.2 }
  match r.1 with
  | .ended outcome => (.ended s.hub.now outcome, (s.conclude j began outcome).release j)
  | activity => (.running j began activity, s)

/-- Runs a job that may run. -/
def launch (s : Session) (j : Job) : Stage × Session :=
  s.settle j s.hub.now (Activity.start j.device s.hub (j.purpose.procedure s.verbose))

/-- A call that cannot run. -/
def refuse (s : Session) (e : Fault) : Stage × Session := (.ended s.hub.now (.error e), s)

/-- Runs a job if its lock is free, and takes the lock for it. -/
def enter (s : Session) (j : Job) : Stage × Session :=
  match j.lock? with
  | none => s.launch j
  | some (operation, key) =>
    match s.tables.request key with
    | .error e => s.refuse (.mismatch e)
    | .ok tables =>
      let s := { s with tables }
      match tables.lock? key with
      | some .held => s.refuse (.access (.busy operation j.address))
      | some (.foreign v) => s.refuse (.mismatch (.missingPart v.typeName "locked"))
      | _ => (s.setLock key .held).launch j

/-- Starts a call. -/
def start (s : Session) (c : Call) : Stage × Session :=
  let job := c.service.job c.data s.hub s.hasGateway
  let s := s.write job.log
  match job.outcome with
  | .error e => s.refuse e
  | .ok j => s.enter j

/-- What becomes of a task that is woken. -/
def move (s : Session) (t : Task) : Stage × Session :=
  match t.stage with
  | .waiting _ => s.start t.call
  | .running j began activity =>
    if t.isCancelled then (s.release j).refuse .cancelled
    else s.settle j began (activity.resume j.device s.hub)
  | .ended .. => (t.stage, s)

/-- The clock at the time when a task wakes. -/
def atWake (s : Session) (t : Task) : Session :=
  { s with hub := { s.hub with now := max s.hub.now (t.wake?.getD 0) } }

/-- Wakes the task at a position. -/
def advance (s : Session) (i : Nat) : Session :=
  match s.tasks[i]? with
  | none => s
  | some t =>
    let (stage, after) := (s.atWake t).move t
    { after with tasks := s.tasks.set i { t with stage } }

theorem settle_follows (s : Session) (j : Job) (began : Nat) (activity : Activity Entries)
    (r : Activity Entries × Hub) (h : Activity.Follows r.1 activity) :
    Stage.Follows (s.settle j began r).1 (.running j began activity) := by
  unfold settle
  split
  · exact .finished j began activity _ _
  · exact .resumed j began _ activity h

theorem launch_follows (s : Session) (j : Job) (w : Nat) :
    Stage.Follows (s.launch j).1 (.waiting w) := by
  unfold launch settle
  split
  · exact .refused w _ _
  · exact .started w j _ _

theorem start_follows (s : Session) (c : Call) (w : Nat) :
    Stage.Follows (s.start c).1 (.waiting w) := by
  unfold start
  dsimp only
  split
  · exact .refused w _ _
  · unfold enter
    split
    · exact launch_follows _ _ w
    · split
      · exact .refused w _ _
      · dsimp only
        split
        · exact .refused w _ _
        · exact .refused w _ _
        · exact launch_follows _ _ w

theorem move_follows (s : Session) (t : Task) (wakes : t.wake?.isSome) :
    Stage.Follows (s.move t).1 t.stage := by
  unfold move
  split
  · next w h => exact h ▸ start_follows s t.call w
  · next j began activity h =>
    rw [h]
    split
    · exact .finished j began activity _ _
    · next hc =>
      refine settle_follows s j began activity _ (Activity.resume_follows _ _ _ ?_)
      simpa [Task.wake?, hc, Task.due?, h] using wakes
  · next h => simp [Task.wake?, Task.isCancelled, Task.due?, h] at wakes

theorem advance_follows (s : Session) (i w : Nat) (h : Task.earliest? s.tasks = some (i, w)) :
    Task.Follows (s.advance i).tasks s.tasks := by
  obtain ⟨t, ht, hw⟩ := Task.earliest?_wakes s.tasks i w h
  simp only [advance, ht]
  exact Task.set_follows s.tasks i t _ ht (move_follows _ t (by simp [hw]))

instance : WellFoundedRelation (List Task) := ⟨Task.Follows, Task.follows_wellFounded⟩

/-- Wakes one task after the other until all have ended. -/
def run (s : Session) : Session :=
  match _h : Task.earliest? s.tasks with
  | none => s
  | some (i, _) => (s.advance i).run
termination_by s.tasks
decreasing_by exact advance_follows s i _ ‹_›

/-- What can be told about calls that ran side by side. -/
structure Report where
  results : List (Nat × Outcome Entries)
  calls : List CallRecord
  events : List Event
  log : Log

/-- The session without what earlier calls have left to be told. -/
def fresh (s : Session) : Session :=
  { s with hub := { s.hub with calls := [], log := [] }, events := [], tasks := [] }

/-- Runs calls side by side to their ends. -/
def perform (s : Session) (calls : List Call) : Report × Session :=
  let s := run { s.fresh with tasks := calls.map (Task.ofCall s.hub.now) }
  (⟨s.tasks.filterMap Task.result?, s.hub.calls, s.events, s.hub.log⟩, s)

/-- Changes a device between calls. -/
def arrange (s : Session) (a : Address) (f : Device → Device) : Session :=
  { s with hub := s.hub.update a f }

/-- Sets up the services for what the host keeps. -/
def setUp (data : Value) (hasGateway : Bool) (hub : Hub) : Outcome Session := do
  let own ← ofMismatch (domainData data)
  let verbose ← ofMismatch (isVerbose data)
  let log := [⟨Level.ofVerbose verbose, s!"Registered {domain} services"⟩,
    ⟨.debug, s!"{domain} set up"⟩]
  return { hub := hub.write log, hasGateway, verbose, data := own, tables := LockTables.ofData own,
           events := [], tasks := [] }

end Session

end Commissioning
