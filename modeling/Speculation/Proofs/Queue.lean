import Speculation.Queue
import Mathlib.Data.List.Perm.Basic
import Mathlib.Tactic.Lemma

/-!
The compile queue loses nothing and does nothing twice.

However pushes, workers and the shutdown are interleaved, every job that was pushed is waiting, in the
hands of one worker, or delivered, and jobs are started in the order in which they were pushed. The
counter of idle workers is right in every state, though pushes read it without the lock. A push that
finds nobody asleep relies on that: while a job waits, some worker is awake, or some push has yet to
wake or start one.
-/

namespace Speculation

variable {Job : Type}

/-- The job in the hands of a worker. -/
def Worker.job? : Worker Job → Option Job
  | .taken j | .running j => some j
  | _ => none

/-- The worker is between the two updates of the counter of idle workers. That is not quite where it has
a job: one that has just taken a job still counts as idle, and one that has delivered its job does not
count until it has the lock again. -/
def Worker.isUncounted : Worker Job → Bool
  | .running _ | .leaving | .back => true
  | _ => false

/-- The worker runs a job, or will look at the queue without being notified. -/
def Worker.isAwake : Worker Job → Bool
  | .asleep | .stopped => false
  | _ => true

def QueueAction.queued : QueueAction Job → List Job
  | .enqueue j => [j]
  | _ => []

namespace Queue

variable {q q' : Queue Job} {a : QueueAction Job} {n i : Nat} {w w' : Worker Job}

def inHand (q : Queue Job) : List Job := q.workers.filterMap Worker.job?

/-- How many workers have been started that are not between those updates? -/
def counted (q : Queue Job) : Nat := q.workers.countP fun w => !w.isUncounted

/-- The job that an action starts: that of a worker which finds one. -/
def starts (q : Queue Job) : QueueAction Job → List Job
  | .work i =>
    match q.workers[i]?, q.shutdown with
    | some .looking, false => q.jobs.take 1
    | _, _ => []
  | _ => []

def started (q : Queue Job) : List (QueueAction Job) → List Job
  | [] => []
  | a :: rest =>
    match q.step a with
    | none => []
    | some q' => q.starts a ++ q'.started rest

/-! ### What a step can do -/

/-- A worker goes from `w` to `w'`. Only the five fields named here can change. -/
inductive Turn (q : Queue Job) : Worker Job → Worker Job → Queue Job → Prop
  | move {w w' : Worker Job} {workers : List (Worker Job)} {holder : Option Nat}
    (hjob : w'.job? = w.job?) (hcounted : w'.isUncounted = w.isUncounted)
    (hlooking : w = .looking → q.shutdown = true ∨ q.jobs = [])
    (hasleep : w' = .asleep → q.jobs = []) (hstopped : w' = .stopped → q.shutdown = true) :
    Turn q w w' { q with workers, holder }
  | take {workers : List (Worker Job)} {j : Job} {js : List Job} (hjobs : q.jobs = j :: js)
    (hopen : q.shutdown = false) : Turn q .looking (.taken j) { q with workers, jobs := js }
  | run {workers : List (Worker Job)} (j : Job) : Turn q (.taken j) (.running j)
    { q with workers, idle := q.idle - 1, holder := none }
  | deliver {workers : List (Worker Job)} (j : Job) : Turn q (.running j) .leaving
    { q with workers, delivered := q.delivered ++ [j] }
  | settle {workers : List (Worker Job)} : Turn q .back .looking
    { q with workers, idle := q.idle + 1 }

lemma turn_of_look : ∃ w', Turn q .looking w' (q.look i) ∧
    (q.look i).workers = q.workers.set i w' := by
  unfold look
  split
  · rename_i h
    exact ⟨.stopped, .move rfl rfl (fun _ => .inl h) nofun fun _ => h, rfl⟩
  · rename_i h
    split
    · rename_i hjobs
      exact ⟨.asleep, .move rfl rfl (fun _ => .inr hjobs) (fun _ => hjobs) nofun, rfl⟩
    · rename_i j js hjobs
      exact ⟨.taken j, .take hjobs (Bool.eq_false_iff.mpr h), rfl⟩

lemma turn_of_acquire (h : q.acquire i w' = some q') (hjob : w'.job? = w.job?)
    (hcounted : w'.isUncounted = w.isUncounted) (hlooking : w ≠ .looking)
    (hawake : w'.isAwake = true) : Turn q w w' q' ∧ q'.workers = q.workers.set i w' := by
  unfold acquire at h
  split at h
  · cases h
    refine ⟨.move hjob hcounted (fun h => absurd h hlooking) ?_ ?_, rfl⟩
    · rintro rfl
      cases hawake
    · rintro rfl
      cases hawake
  · cases h

lemma workStep_turn (h : q.workStep i = some q') : ∃ w w', q.workers[i]? = some w ∧
    Turn q w w' q' ∧ q'.workers = q.workers.set i w' := by
  unfold workStep at h
  split at h
  · cases h
  · cases h
  · cases h
  · rename_i hw
    exact ⟨_, _, hw, turn_of_acquire h rfl rfl nofun rfl⟩
  · rename_i hw
    cases h
    obtain ⟨w', hturn, hset⟩ := turn_of_look (q := q) (i := i)
    exact ⟨_, w', hw, hturn, hset⟩
  · rename_i j hw
    cases h
    exact ⟨_, _, hw, .run j, rfl⟩
  · rename_i j hw
    cases h
    exact ⟨_, _, hw, .deliver j, rfl⟩
  · rename_i hw
    exact ⟨_, _, hw, turn_of_acquire h rfl rfl nofun rfl⟩
  · rename_i hw
    cases h
    exact ⟨_, _, hw, .settle, rfl⟩

inductive Advance (q : Queue Job) (i : Nat) : Queue Job → Prop
  | wakeNone (h : q.pushes[i]? = some .notifying) (hnone : ∀ w ∈ q.workers, w ≠ .asleep) :
    Advance q i { q with pushes := q.pushes.set i .counting }
  | wake {k : Nat} (h : q.pushes[i]? = some .notifying) (hk : q.workers[k]? = some .asleep) :
    Advance q i { q.setWorker k .entering with pushes := q.pushes.set i .counting }
  | countNone (h : q.pushes[i]? = some .counting) (hidle : q.idle = 0) :
    Advance q i { q with pushes := q.pushes.set i .providing }
  | countSome (h : q.pushes[i]? = some .counting) (hidle : q.idle ≠ 0) :
    Advance q i { q with pushes := q.pushes.eraseIdx i }
  | provide (h : q.pushes[i]? = some .providing) (hroom : q.workers.length < q.maxWorkers) :
    Advance q i { q with
      idle := q.idle + 1
      workers := q.workers ++ [.entering]
      pushes := q.pushes.eraseIdx i }
  | full (h : q.pushes[i]? = some .providing) (hroom : ¬q.workers.length < q.maxWorkers) :
    Advance q i { q with pushes := q.pushes.eraseIdx i }

lemma pushStep_advance {woken : Option Nat} (h : q.pushStep i woken = some q') : Advance q i q' := by
  unfold pushStep at h
  split at h
  · cases h
  · rename_i hi
    obtain ⟨q₁, h₁, rfl⟩ := Option.map_eq_some_iff.mp h
    unfold notify at h₁
    split at h₁
    · split at h₁
      · cases h₁
      · rename_i hnone
        cases h₁
        refine .wakeNone hi ?_
        rintro w hw rfl
        exact hnone (List.any_eq_true.mpr ⟨_, hw, rfl⟩)
    · split at h₁
      · rename_i hk
        cases h₁
        exact .wake hi hk
      · cases h₁
  · rename_i hi
    split at h
    · rename_i hidle
      cases h
      exact .countNone hi hidle
    · rename_i hidle
      cases h
      exact .countSome hi hidle
  · rename_i hi
    cases h
    unfold provide
    split
    · rename_i hroom
      exact .provide hi hroom
    · rename_i hroom
      exact .full hi hroom

/-! ### One worker among the others -/

/-- The list before and after one element of it changes or goes. -/
lemma split_set {α : Type} {xs : List α} {x : α} (h : xs[i]? = some x) : ∃ pre post,
    xs = pre ++ x :: post ∧ (∀ y, xs.set i y = pre ++ y :: post) ∧ xs.eraseIdx i = pre ++ post := by
  obtain ⟨hi, rfl⟩ := List.getElem?_eq_some_iff.mp h
  refine ⟨xs.take i, xs.drop (i + 1), ?_, fun y => List.set_eq_take_append_cons_drop.trans ?_,
    List.eraseIdx_eq_take_drop_succ ..⟩
  · rw [List.getElem_cons_drop, List.take_append_drop]
  · rw [if_pos hi]

/-- A turn takes jobs from the front of the queue, and what it takes or had is still in hand or
delivered. -/
lemma Turn.passes (h : Turn q w w' q') (hw : q.workers[i]? = some w) :
    q.jobs = q.starts (.work i) ++ q'.jobs ∧ ∀ pre post : List (Worker Job),
      ((pre ++ w' :: post).filterMap Worker.job? ++ q'.delivered).Perm
        ((pre ++ w :: post).filterMap Worker.job? ++ q.delivered ++ q.starts (.work i)) := by
  cases h with
  | move hjob _ hlooking =>
    have hnone : q.starts (.work i) = [] := by
      simp only [starts, hw]
      split
      · rename_i hl hopen
        rcases hlooking (Option.some.inj hl) with h | h
        · rw [h] at hopen
          cases hopen
        · rw [h, List.take_nil]
      · rfl
    rw [hnone, List.nil_append]
    refine ⟨rfl, fun pre post => ?_⟩
    rw [List.append_nil, List.filterMap_append, List.filterMap_append, List.filterMap_cons,
      List.filterMap_cons, hjob]
  | @take _ j js hjobs hopen =>
    have hone : q.starts (.work i) = [j] := by
      simp only [starts, hw, hopen, hjobs]
      rfl
    rw [hone]
    refine ⟨hjobs, fun pre post => ?_⟩
    simp only [List.filterMap_append, List.filterMap_cons, Worker.job?]
    exact ((List.perm_middle.append_right _).trans (List.perm_append_singleton j _).symm)
  | run j =>
    have hnone : q.starts (.work i) = [] := by
      simp only [starts, hw]
    rw [hnone]
    refine ⟨rfl, fun pre post => ?_⟩
    rw [List.append_nil, List.filterMap_append, List.filterMap_append]
    exact .refl _
  | deliver j =>
    have hnone : q.starts (.work i) = [] := by
      simp only [starts, hw]
    rw [hnone]
    refine ⟨rfl, fun pre post => ?_⟩
    simp only [List.filterMap_append, List.filterMap_cons, Worker.job?, List.append_nil]
    rw [← List.append_assoc]
    exact (List.perm_append_singleton j _).trans (List.perm_middle.symm.append_right _)
  | settle =>
    have hnone : q.starts (.work i) = [] := by
      simp only [starts, hw]
    rw [hnone]
    refine ⟨rfl, fun pre post => ?_⟩
    rw [List.append_nil, List.filterMap_append, List.filterMap_append]
    exact .refl _

lemma Turn.rest (h : Turn q w w' q') : q'.maxWorkers = q.maxWorkers ∧
    q'.shutdown = q.shutdown ∧ q'.pushes = q.pushes := by
  cases h <;> exact ⟨rfl, rfl, rfl⟩

lemma Turn.idle (h : Turn q w w' q') :
    q'.idle + (!w.isUncounted).toNat = q.idle + (!w'.isUncounted).toNat := by
  cases h with
  | move _ hcounted => rw [hcounted]
  | take | deliver => rfl
  | run => exact (Int.sub_add_cancel ..).trans (Int.add_zero _).symm
  | settle => exact Int.add_zero _

/-- A worker rests only where there is no job, or no job is to be started any more. -/
lemma Turn.rests (h : Turn q w w' q') :
    (w' = .asleep → q'.jobs = []) ∧ (w' = .stopped → q.shutdown = true) := by
  cases h with
  | move _ _ _ hasleep hstopped => exact ⟨hasleep, hstopped⟩
  | _ => exact ⟨nofun, nofun⟩

lemma inHand_setWorker (h : q.workers[i]? = some w) (hjob : w'.job? = w.job?) :
    (q.setWorker i w').inHand = q.inHand := by
  obtain ⟨pre, post, hq, hset, -⟩ := split_set h
  rw [inHand, inHand, setWorker, hset, hq, List.filterMap_append, List.filterMap_append,
    List.filterMap_cons, List.filterMap_cons, hjob]

lemma counted_setWorker (h : q.workers[i]? = some w) :
    (q.setWorker i w').counted + (!w.isUncounted).toNat = q.counted + (!w'.isUncounted).toNat := by
  obtain ⟨pre, post, hq, hset, -⟩ := split_set h
  rw [counted, counted, setWorker, hset, hq]
  simp only [List.countP_append, List.countP_cons]
  cases w.isUncounted <;> cases w'.isUncounted <;> simp <;> omega

lemma wakeAll_job? (w : Worker Job) : (if isAsleep w then .entering else w).job? = w.job? := by
  cases w <;> rfl

lemma wakeAll_isUncounted (w : Worker Job) :
    (if isAsleep w then .entering else w).isUncounted = w.isUncounted := by
  cases w <;> rfl

lemma inHand_wakeAll (q : Queue Job) : q.wakeAll.inHand = q.inHand := by
  rw [inHand, wakeAll, List.filterMap_map]
  exact List.filterMap_congr fun w _ => wakeAll_job? w

lemma counted_wakeAll (q : Queue Job) : q.wakeAll.counted = q.counted := by
  rw [counted, wakeAll, List.countP_map]
  exact List.countP_congr fun w _ => by simp [wakeAll_isUncounted]

/-! ### No job is lost -/

/-- A step queues jobs at the end and starts them from the front, and those it starts are in hand or
delivered. -/
lemma step_passes (h : q.step a = some q') :
    q.jobs ++ a.queued = q.starts a ++ q'.jobs ∧
      (q'.inHand ++ q'.delivered).Perm (q.inHand ++ q.delivered ++ q.starts a) := by
  cases a with
  | enqueue j =>
    rw [step] at h
    split at h
    · cases h
      exact ⟨rfl, by simp [starts, inHand]⟩
    · cases h
  | push i woken =>
    have hsame : q'.jobs = q.jobs ∧ q'.inHand = q.inHand ∧ q'.delivered = q.delivered := by
      cases pushStep_advance h with
      | wake _ hk => exact ⟨rfl, inHand_setWorker hk rfl, rfl⟩
      | provide => exact ⟨rfl, by simp [inHand, Worker.job?], rfl⟩
      | _ => exact ⟨rfl, rfl, rfl⟩
    rw [hsame.1, hsame.2.1, hsame.2.2]
    simp [starts, QueueAction.queued]
  | work i =>
    obtain ⟨w, w', hw, hturn, hset⟩ := workStep_turn h
    obtain ⟨pre, post, hq, hsplit, -⟩ := split_set hw
    obtain ⟨hjobs, hperm⟩ := hturn.passes hw
    rw [inHand, inHand, hset, hsplit, hq]
    exact ⟨(List.append_nil _).trans hjobs, hperm pre post⟩
  | close =>
    cases h
    simp [starts, QueueAction.queued, inHand]
  | wakeAll =>
    rw [step] at h
    split at h
    · cases h
      rw [inHand_wakeAll]
      simp [starts, QueueAction.queued, wakeAll]
    · cases h

/-- So it is for a whole run. -/
lemma steps_pass {acts : List (QueueAction Job)} (h : q.steps acts = some q') :
    q.jobs ++ acts.flatMap QueueAction.queued = q.started acts ++ q'.jobs ∧
      (q'.inHand ++ q'.delivered).Perm (q.inHand ++ q.delivered ++ q.started acts) := by
  induction acts generalizing q with
  | nil =>
    cases h
    simp [started]
  | cons a acts ih =>
    obtain ⟨q₁, h₁, h⟩ := Option.bind_eq_some_iff.mp h
    obtain ⟨hjobs₁, hperm₁⟩ := step_passes h₁
    obtain ⟨hjobs, hperm⟩ := ih h
    simp only [started, h₁, List.flatMap_cons]
    refine ⟨?_, ?_⟩
    · rw [← List.append_assoc, hjobs₁, List.append_assoc, hjobs, List.append_assoc]
    · rw [← List.append_assoc]
      exact hperm.trans (hperm₁.append_right _)

/-- The bound on the workers stays, and the shutdown is not taken back. -/
lemma step_rest (h : q.step a = some q') :
    q'.maxWorkers = q.maxWorkers ∧ (q.shutdown = true → q'.shutdown = true) := by
  cases a with
  | enqueue j =>
    rw [step] at h
    split at h
    · cases h
      exact ⟨rfl, id⟩
    · cases h
  | push i woken => cases pushStep_advance h <;> exact ⟨rfl, id⟩
  | work i =>
    obtain ⟨w, w', hw, hturn, hset⟩ := workStep_turn h
    obtain ⟨hmax, hshutdown, -⟩ := hturn.rest
    exact ⟨hmax, fun hq => hshutdown.trans hq⟩
  | close =>
    cases h
    exact ⟨rfl, fun _ => rfl⟩
  | wakeAll =>
    rw [step] at h
    split at h
    · cases h
      exact ⟨rfl, id⟩
    · cases h

/-- Once the shutdown has begun, no job is started any more. -/
lemma starts_of_shutdown (hq : q.shutdown = true) : q.starts a = [] := by
  unfold starts
  split
  · split
    · rename_i hopen
      rw [hq] at hopen
      cases hopen
    · rfl
  · rfl

lemma started_of_shutdown {acts : List (QueueAction Job)} (h : q.steps acts = some q')
    (hq : q.shutdown = true) : q.started acts = [] := by
  induction acts generalizing q with
  | nil => rfl
  | cons a acts ih =>
    obtain ⟨q₁, h₁, h⟩ := Option.bind_eq_some_iff.mp h
    simp only [started, h₁, starts_of_shutdown hq, ih h ((step_rest h₁).2 hq), List.append_nil]

/-! ### Workers -/

lemma steps_maxWorkers {acts : List (QueueAction Job)} (h : q.steps acts = some q') :
    q'.maxWorkers = q.maxWorkers := by
  induction acts generalizing q with
  | nil =>
    cases h
    rfl
  | cons a acts ih =>
    obtain ⟨q₁, h₁, h⟩ := Option.bind_eq_some_iff.mp h
    exact (ih h).trans (step_rest h₁).1

/-- Some worker is awake, or some push has yet to wake one, or to start the first. -/
def Covered (q : Queue Job) : Prop :=
  (∃ w ∈ q.workers, w.isAwake = true) ∨ .notifying ∈ q.pushes ∨ q.workers = [] ∧ q.pushes ≠ []

structure Ordered (q : Queue Job) : Prop where
  pos : 0 < q.maxWorkers
  cap : q.workers.length ≤ q.maxWorkers
  idle : q.idle = q.counted
  stopped : .stopped ∈ q.workers → q.shutdown = true
  covered : q.shutdown = false → q.jobs ≠ [] → q.Covered

lemma ordered_new (n : Nat) : (new n : Queue Job).Ordered where
  pos := Nat.lt_of_lt_of_le Nat.one_pos (Nat.le_max_right n 1)
  cap := Nat.zero_le _
  idle := rfl
  stopped h := by cases h
  covered _ h := absurd rfl h

namespace Ordered

/-- No worker can fall asleep over a job. -/
lemma turn (h : q.Ordered) (hw : q.workers[i]? = some w) (hturn : Turn q w w' q')
    (hset : q'.workers = q.workers.set i w') : q'.Ordered := by
  obtain ⟨hmax, hshutdown, -⟩ := hturn.rest
  obtain ⟨hasleep, hstopped⟩ := hturn.rests
  refine ⟨hmax ▸ h.pos, ?_, ?_, fun hs => ?_, fun hopen hjobs => .inl ⟨w', ?_, ?_⟩⟩
  · rw [hset, List.length_set, hmax]
    exact h.cap
  · have hcount : q'.counted + (!w.isUncounted).toNat = q.counted + (!w'.isUncounted).toNat := by
      rw [counted, hset]
      exact counted_setWorker hw
    have hidle := hturn.idle
    rw [h.idle] at hidle
    omega
  · rw [hset] at hs
    rcases List.mem_or_eq_of_mem_set hs with hs | hs
    · exact hshutdown ▸ h.stopped hs
    · exact hshutdown ▸ hstopped hs.symm
  · rw [hset]
    exact List.mem_set (List.getElem?_eq_some_iff.mp hw).1 _
  · rw [hshutdown] at hopen
    cases w' with
    | asleep => exact absurd (hasleep rfl) hjobs
    | stopped =>
      rw [hstopped rfl] at hopen
      cases hopen
    | _ => rfl

lemma pushes (h : q.Ordered) {ps : List Push}
    (hcovered : q.shutdown = false → q.jobs ≠ [] → Covered { q with pushes := ps }) :
    Ordered { q with pushes := ps } :=
  ⟨h.pos, h.cap, h.idle, h.stopped, hcovered⟩

lemma wake (h : q.Ordered) (hi : q.workers[i]? = some .asleep) :
    (q.setWorker i .entering).Ordered := by
  refine ⟨h.pos, ?_, ?_, fun hs => ?_, fun _ _ => .inl ⟨.entering, ?_, rfl⟩⟩
  · rw [setWorker, List.length_set]
    exact h.cap
  · have hcount : (q.setWorker i .entering).counted + 1 = q.counted + 1 := counted_setWorker hi
    rw [show (q.setWorker i .entering).idle = q.idle from rfl, h.idle]
    exact congrArg Nat.cast (Nat.add_right_cancel hcount).symm
  · exact h.stopped ((List.mem_or_eq_of_mem_set hs).resolve_right nofun)
  · exact List.mem_set (List.getElem?_eq_some_iff.mp hi).1 _

/-- Before the shutdown begins, nobody has stopped. -/
lemma awake (h : q.Ordered) (hopen : q.shutdown = false) (hw : w ∈ q.workers)
    (hasleep : w ≠ .asleep) : w.isAwake = true := by
  cases w with
  | asleep => exact absurd rfl hasleep
  | stopped =>
    rw [h.stopped hw] at hopen
    cases hopen
  | _ => rfl

/-- A push that is not needed to wake anybody may end. -/
lemma endPush {x : Push} (h : q.Ordered) (hi : q.pushes[i]? = some x) (hx : x ≠ .notifying)
    (hworkers : q.workers ≠ []) : Ordered { q with pushes := q.pushes.eraseIdx i } := by
  obtain ⟨pre, post, hpushes, -, herase⟩ := split_set hi
  refine h.pushes fun hopen hjobs => ?_
  rw [herase]
  refine (h.covered hopen hjobs).imp_right fun hn => .inl ?_
  rcases hn with hn | ⟨hw, -⟩
  · rw [hpushes] at hn
    simpa [hx.symm] using hn
  · exact absurd hw hworkers

/-- A push ends only when somebody is awake, or somebody else has yet to see to that. -/
lemma pushStep {woken : Option Nat} (h : q.Ordered) (hstep : q.pushStep i woken = some q') :
    q'.Ordered := by
  cases pushStep_advance hstep with
  | wakeNone hi hnone =>
    refine h.pushes fun hopen _ => ?_
    by_cases hworkers : q.workers = []
    · obtain ⟨pre, post, -, hset, -⟩ := split_set hi
      exact .inr (.inr ⟨hworkers, by simp [hset]⟩)
    · obtain ⟨w, hw⟩ := List.exists_mem_of_ne_nil _ hworkers
      exact .inl ⟨w, hw, h.awake hopen hw (hnone w hw)⟩
  | wake _ hk =>
    exact (h.wake hk).pushes fun _ _ =>
      .inl ⟨.entering, List.mem_set (List.getElem?_eq_some_iff.mp hk).1 _, rfl⟩
  | countNone hi =>
    obtain ⟨pre, post, hpushes, hset, -⟩ := split_set hi
    refine h.pushes fun hopen hjobs => ?_
    rw [hset]
    refine (h.covered hopen hjobs).imp_right (Or.imp (fun hn => ?_) fun ⟨hw, _⟩ => ⟨hw, by simp⟩)
    rw [hpushes] at hn
    simpa using hn
  | countSome hi hidle =>
    -- somebody is idle, so there are workers
    refine h.endPush hi nofun fun hw => hidle ?_
    rw [h.idle, counted, hw]
    rfl
  | provide hi hroom =>
    refine ⟨h.pos, ?_, ?_, fun hs => ?_, fun _ _ => .inl ⟨.entering, by simp, rfl⟩⟩
    · rw [List.length_append]
      exact hroom
    · simp only [counted, List.countP_append, h.idle]
      rfl
    · exact h.stopped ((List.mem_append.mp hs).resolve_right (by simp))
  | full hi hroom =>
    refine h.endPush hi nofun fun hw => hroom ?_
    rw [hw]
    exact h.pos

lemma step (h : q.Ordered) (hstep : q.step a = some q') : q'.Ordered := by
  cases a with
  | enqueue j =>
    rw [Queue.step] at hstep
    split at hstep
    · cases hstep
      exact ⟨h.pos, h.cap, h.idle, h.stopped, fun _ _ => .inr (.inl (by simp))⟩
    · cases hstep
  | push i woken => exact h.pushStep hstep
  | work i =>
    obtain ⟨w, w', hw, hturn, hset⟩ := workStep_turn hstep
    exact h.turn hw hturn hset
  | close =>
    cases hstep
    exact ⟨h.pos, h.cap, h.idle, fun _ => rfl, nofun⟩
  | wakeAll =>
    rw [Queue.step] at hstep
    split at hstep
    · cases hstep
      refine ⟨h.pos, ?_, ?_, fun hs => ?_, fun hopen hjobs => ?_⟩
      · exact Nat.le_trans (Nat.le_of_eq (List.length_map ..)) h.cap
      · rw [counted_wakeAll]
        exact h.idle
      · obtain ⟨w, hw, hw'⟩ := List.mem_map.mp hs
        cases w <;> cases hw'
        exact h.stopped hw
      · refine (h.covered hopen hjobs).imp (fun ⟨w, hw, ha⟩ => ⟨w, ?_, ha⟩)
          (Or.imp_right fun ⟨hw, hp⟩ => ⟨by simp [wakeAll, hw], hp⟩)
        refine List.mem_map.mpr ⟨w, hw, ?_⟩
        cases w <;> first | rfl | cases ha
    · cases hstep

lemma steps {acts : List (QueueAction Job)} (h : q.Ordered) (hsteps : q.steps acts = some q') :
    q'.Ordered := by
  induction acts generalizing q with
  | nil =>
    cases hsteps
    exact h
  | cons a acts ih =>
    obtain ⟨q₁, h₁, hsteps⟩ := Option.bind_eq_some_iff.mp hsteps
    exact ih (h.step h₁) hsteps

end Ordered

/-- What is known of a queue for at most `n` workers after any run. -/
structure Accounts (n : Nat) (acts : List (QueueAction Job)) (q : Queue Job) : Prop where
  /-- A job that was pushed is delivered, in the hands of one worker, or still queued, and it is so
  once. -/
  whereabouts : (acts.flatMap QueueAction.queued).Perm (q.delivered ++ q.inHand ++ q.jobs)
  /-- The jobs that were started are those that were pushed first, in the same order. -/
  order : acts.flatMap QueueAction.queued = (new n).started acts ++ q.jobs
  taken : ((new n).started acts).Perm (q.delivered ++ q.inHand)
  /-- What is still queued when the shutdown has begun is abandoned: it stays in the queue. -/
  abandoned {later : List (QueueAction Job)} {q' : Queue Job} (hq : q.shutdown = true)
    (h : q.steps later = some q') :
    q'.jobs = q.jobs ++ later.flatMap QueueAction.queued ∧ q.started later = []
  cap : q.workers.length ≤ max n 1
  idle : q.idle = q.counted
  /-- With no push in progress somebody is awake while a job waits. -/
  awake (hpushes : q.pushes = []) (hopen : q.shutdown = false) (hjobs : q.jobs ≠ []) :
    ∃ w ∈ q.workers, w.isAwake = true

/-- However pushes, workers and the shutdown are interleaved, the queue loses no job and delivers none
twice, starts jobs in order, and never sleeps over one. -/
theorem accounts_of_steps {acts : List (QueueAction Job)} (h : (new n).steps acts = some q) :
    Accounts n acts q := by
  have hordered := (ordered_new n).steps h
  obtain ⟨horder, hperm⟩ := steps_pass h
  have hmax : q.maxWorkers = max n 1 := steps_maxWorkers h
  have htaken : ((new n).started acts).Perm (q.delivered ++ q.inHand) :=
    hperm.symm.trans List.perm_append_comm
  refine ⟨?_, horder, htaken, fun {later q'} hq hlater => ?_, hmax ▸ hordered.cap, hordered.idle,
    fun hpushes hopen hjobs => ?_⟩
  · exact (List.Perm.of_eq horder).trans (htaken.append_right _)
  · have hnone := started_of_shutdown hlater hq
    obtain ⟨hjobs, -⟩ := steps_pass hlater
    rw [hnone] at hjobs
    exact ⟨hjobs.symm, hnone⟩
  · rcases hordered.covered hopen hjobs with hawake | hn | ⟨-, hn⟩
    · exact hawake
    · rw [hpushes] at hn
      cases hn
    · exact absurd hpushes hn

/-- Two pushes find no idle worker, and both start one. The first worker takes both jobs, the second
falls asleep, and the shutdown comes while a third job waits. -/
def racing : List (QueueAction Nat) :=
  [.enqueue 1, .enqueue 2, .push 0 none, .push 1 none, .push 0 none, .push 1 none, .push 1 none,
    .push 0 none, .work 0, .work 0, .work 0, .work 0, .work 0, .work 0, .work 0, .work 0, .work 1,
    .work 1, .enqueue 3, .close]

theorem accounts_of_steps_racing : ∃ q : Queue Nat, (new 2).steps racing = some q ∧
    Accounts 2 racing q ∧ q.delivered = [1] ∧ q.inHand = [2] ∧ q.jobs = [3] ∧ q.idle = 1 := by
  have hrun : ((new 2).steps racing).map (fun q => (q.delivered, q.inHand, q.jobs, q.idle)) =
      some ([1], [2], [3], 1) := by decide
  obtain ⟨q, hq, hview⟩ := Option.map_eq_some_iff.mp hrun
  simp only [Prod.mk.injEq] at hview
  exact ⟨q, hq, accounts_of_steps hq, hview⟩

end Queue

end Speculation
