/-!
# The compile queue

Jobs are queued by any number of pushes and served in order by a bounded number of workers, each
of which sleeps while there is nothing to do. The queue is guarded by one lock. `Queue.step`
gives the atomic steps of pushes, workers and shutdown, which may be interleaved in any way;
`Queue.settle` is one fair schedule of the workers.
-/

namespace Speculation

/-- What a worker is about to do. -/
inductive Worker (Job : Type) where
  /-- Take the lock and look at the queue. -/
  | entering
  /-- With the lock: stop, take a job, or go to sleep. -/
  | looking
  /-- With the lock and a job: no longer count as idle, and release the lock. -/
  | taken (j : Job)
  /-- Without the lock: do the job. -/
  | running (j : Job)
  /-- Take the lock again. -/
  | leaving
  /-- With the lock: count as idle again. -/
  | back
  /-- Wait to be notified. -/
  | asleep
  | stopped
deriving DecidableEq, Repr, Inhabited

/-- What a push is about to do once its job is queued. -/
inductive Push where
  /-- Wake a worker. -/
  | notifying
  /-- Read the counter of idle workers. -/
  | counting
  /-- The counter was zero: start a worker if there may be another. -/
  | providing
deriving DecidableEq, Repr, Inhabited

structure Queue (Job : Type) where
  maxWorkers : Nat
  jobs : List Job := []
  workers : List (Worker Job) := []
  /-- The counter of idle workers. -/
  idle : Int := 0
  /-- The worker that holds the lock. -/
  holder : Option Nat := none
  /-- The pushes in progress. -/
  pushes : List Push := []
  /-- The jobs done, in the order of their completion. -/
  delivered : List Job := []
  shutdown : Bool := false
deriving Repr, Inhabited

/-- A step of a push, of a worker, or of the end of the queue. -/
inductive QueueAction (Job : Type) where
  | enqueue (j : Job)
  /-- The next step of a push; a notification wakes `woken`, which has to be asleep, or nobody if
  nobody is asleep. -/
  | push (i : Nat) (woken : Option Nat)
  | work (i : Nat)
  /-- Begin to shut down. -/
  | close
  /-- Wake all workers, so that they see the shutdown. -/
  | wakeAll
deriving Repr

namespace Queue

variable {Job : Type}

/-- At least one worker may run. -/
def new (jobs : Nat) : Queue Job := { maxWorkers := max jobs 1 }

/-- How many jobs wait for a worker? -/
def pending (q : Queue Job) : Nat := q.jobs.length

def isAsleep : Worker Job → Bool
  | .asleep => true
  | _ => false

def setWorker (q : Queue Job) (i : Nat) (w : Worker Job) : Queue Job :=
  { q with workers := q.workers.set i w }

/-- Wake one worker. -/
def notify (q : Queue Job) (woken : Option Nat) : Option (Queue Job) :=
  match woken with
  | none => if q.workers.any isAsleep then none else some q
  | some i =>
    match q.workers[i]? with
    | some .asleep => some (q.setWorker i .entering)
    | _ => none

/-- Start a worker if there may be another. Counting it as idle and starting it are one step here: a
push has the list of workers locked for both, so that in between others see no more than a counter
that is ahead of the list. -/
def provide (q : Queue Job) : Queue Job :=
  if q.workers.length < q.maxWorkers then
    { q with idle := q.idle + 1, workers := q.workers ++ [.entering] }
  else q

def pushStep (q : Queue Job) (i : Nat) (woken : Option Nat) : Option (Queue Job) :=
  match q.pushes[i]? with
  | none => none
  | some .notifying => (q.notify woken).map fun q => { q with pushes := q.pushes.set i .counting }
  | some .counting =>
    -- other pushes and the workers may change the counter before this push goes on
    if q.idle = 0 then some { q with pushes := q.pushes.set i .providing }
    else some { q with pushes := q.pushes.eraseIdx i }
  | some .providing => some { q.provide with pushes := q.pushes.eraseIdx i }

/-- Take the lock if it is free. -/
def acquire (q : Queue Job) (i : Nat) (w : Worker Job) : Option (Queue Job) :=
  if q.holder.isNone then some { q.setWorker i w with holder := some i } else none

/-- What a worker does that holds the lock. -/
def look (q : Queue Job) (i : Nat) : Queue Job :=
  if q.shutdown then { q.setWorker i .stopped with holder := none }
  else
    match q.jobs with
    | [] => { q.setWorker i .asleep with holder := none }
    | j :: js => { q.setWorker i (.taken j) with jobs := js }

def workStep (q : Queue Job) (i : Nat) : Option (Queue Job) :=
  match q.workers[i]? with
  | none | some .asleep | some .stopped => none
  | some .entering => q.acquire i .looking
  | some .looking => some (q.look i)
  | some (.taken j) =>
    some { q.setWorker i (.running j) with idle := q.idle - 1, holder := none }
  | some (.running j) => some { q.setWorker i .leaving with delivered := q.delivered ++ [j] }
  | some .leaving => q.acquire i .back
  | some .back => some { q.setWorker i .looking with idle := q.idle + 1 }

def wakeAll (q : Queue Job) : Queue Job :=
  { q with workers := q.workers.map fun w => if isAsleep w then .entering else w }

/-- One atomic step, if it is possible. -/
def step (q : Queue Job) : QueueAction Job → Option (Queue Job)
  | .enqueue j =>
    if q.holder.isNone then
      some { q with jobs := q.jobs ++ [j], pushes := q.pushes ++ [.notifying] }
    else none
  | .push i woken => q.pushStep i woken
  | .work i => q.workStep i
  | .close => some { q with shutdown := true }
  | .wakeAll => if q.holder.isNone then some q.wakeAll else none

def steps (q : Queue Job) : List (QueueAction Job) → Option (Queue Job)
  | [] => some q
  | a :: rest => (q.step a).bind fun q => q.steps rest

/-- A push that nothing interrupts. -/
def push (q : Queue Job) (j : Job) : Queue Job :=
  let next := QueueAction.push q.pushes.length
  let provide := if q.idle = 0 then [next none] else []
  let woken := q.workers.findIdx? isAsleep
  (q.steps ([.enqueue j, next woken, next none] ++ provide)).getD q

/-- One turn of every worker in order. -/
def turn (q : Queue Job) : Queue Job :=
  (List.range q.workers.length).foldl (fun q i => (q.workStep i).getD q) q

/-- Turns of all workers, at most `fuel` of them. -/
def turns : Nat → Queue Job → Queue Job
  | 0, q => q
  | fuel + 1, q => turns fuel q.turn

/-- Let the workers go on until all queued jobs are done. A worker has six steps for each job, and a
turn in which some worker has work left moves at least one of them. -/
def settle (q : Queue Job) : Queue Job :=
  turns (8 * (q.jobs.length + q.workers.length + 1)) q

end Queue

end Speculation
