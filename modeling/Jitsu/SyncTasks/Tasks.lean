import Jitsu.Lib.Transition

namespace Jitsu.SyncTasks

open Jitsu.Transition

inductive Status where
  | running
  | pending
  | waiting
  | complete
  | failed
  | cancelled
  deriving DecidableEq, Repr

structure Schedule where
  runId : String
  revision : String
  attempt : ℕ
  deadline : ℕ
  nextCheckAt : ℕ
  suspended : Bool
  previousStatus : Option Status
  deriving DecidableEq, Repr

structure Worker where
  id : String
  active : Bool
  previousStatus : Option Status
  deriving DecidableEq, Repr

structure Row where
  status : Status
  workspaceId : Option String
  reverseRecovery : Option Schedule
  reverseWorker : Option Worker
  updatedAt : ℕ
  deriving DecidableEq, Repr

structure Control where
  workspaceId : String
  runId : String
  revision : String
  terminal : Bool
  deriving DecidableEq, Repr

inductive Life where
  | absent
  | running (recovery : Bool)
  | ended
  deriving DecidableEq, Repr

structure Config where
  delay : ℕ → ℕ
  day : ℕ
  refreshName : ℕ → String

structure Task where
  row : Option Row
  control : Control
  clock : ℕ
  workers : String → Life

def maxAttempt : ℕ := 2147483647

namespace Row

def active (row : Row) : Bool := row.reverseWorker.any Worker.active

def activeAs (row : Row) (workerId : String) : Bool :=
  row.reverseWorker.any (fun k => k.id = workerId ∧ k.active)

def nextRecoveryCheck (cfg : Config) (runId revision : String) (previous : Option Schedule) (now : ℕ) :
    Option Schedule :=
  let deadline := (previous.map Schedule.deadline).getD (now + cfg.day)
  if deadline ≤ now ∨ previous.any (fun p => maxAttempt ≤ p.attempt) then none
  else
    let attempt := (previous.map (fun p => p.attempt + 1)).getD 0
    some ⟨runId,revision,attempt,deadline,min (now + cfg.delay attempt) deadline,false,none⟩

def start (row : Row) (control : Control) (now : ℕ) (workerId workspaceId revision : String)
    (refreshAttempt : Option ℕ) : Option Row :=
  match row.reverseRecovery with
  | none => none
  | some schedule =>
    if (row.status = .pending ∨ row.status = .waiting) ∧ schedule.suspended = false ∧ row.active = false ∧
        row.workspaceId = some workspaceId ∧ control.workspaceId = workspaceId ∧
        control.runId = schedule.runId ∧ control.revision = revision ∧ control.revision = schedule.revision ∧
        control.terminal = false ∧ refreshAttempt.all (· = schedule.attempt) ∧ schedule.nextCheckAt ≤ now then
      some { row with
        status := .pending
        updatedAt := now
        reverseWorker := some ⟨workerId,true,some (schedule.previousStatus.getD row.status)⟩ }
    else none

def finish (row : Row) (now : ℕ) (workerId : String) (status : Status) (schedule : Option Schedule) : Row :=
  if (row.status = .running ∨ row.status = .pending) ∧ row.activeAs workerId then
    { row with
      status := status
      reverseRecovery := schedule <|> if status = .failed then row.reverseRecovery else none
      reverseWorker := some ⟨workerId,false,none⟩
      updatedAt := now }
  else row

def refreshFailed (cfg : Config) (row : Row) (now : ℕ) (workerId : String) (stopAutomaticChecks : Bool) :
    Option Row :=
  if (row.status = .pending ∨ row.status = .waiting) ∧ row.activeAs workerId then
    match row.reverseRecovery with
    | none => none
    | some previous =>
      let next := nextRecoveryCheck cfg previous.runId previous.revision (some previous) now
      let suspended := stopAutomaticChecks || next.isNone
      let status := (row.reverseWorker.bind Worker.previousStatus).getD row.status
      if status = .waiting ∨ status = .pending ∨ status = .failed ∨ status = .cancelled then
        some { row with
          status := status
          updatedAt := now
          reverseRecovery := some { next.getD previous with suspended := suspended, previousStatus := none }
          reverseWorker := some ⟨workerId,false,none⟩ }
      else none
  else some row

def cancel (row : Row) (now : ℕ) : Row :=
  if row.status = .running ∨ row.status = .waiting ∨ row.status = .pending then
    { row with status := .cancelled, updatedAt := now }
  else row

def closeStale (row : Row) (now staleAfter : ℕ) : Row :=
  if row.status = .running ∧ row.updatedAt + staleAfter < now then
    { row with
      status := .failed
      updatedAt := now
      reverseWorker := row.reverseWorker.map (fun k => { k with active := false }) }
  else row

def failReverseWorker (row : Row) (now : ℕ) (workerId : String) : Row :=
  if row.status = .running ∧ row.reverseWorker.all (fun k => k.id = workerId) then
    { row with status := .failed, updatedAt := now }
  else row

def failedSchedule (cfg : Config) (schedule : Schedule) (now : ℕ) : Schedule :=
  let exhausted := maxAttempt ≤ schedule.attempt
  let attempt := if exhausted then schedule.attempt else schedule.attempt + 1
  { schedule with
    suspended := schedule.suspended || exhausted || decide (schedule.deadline ≤ now)
    attempt := attempt
    nextCheckAt := if schedule.deadline ≤ now then now + cfg.delay attempt
      else min (now + cfg.delay attempt) schedule.deadline
    previousStatus := none }

def recordReverseRefreshFailure (cfg : Config) (row : Row) (now : ℕ) (workerId : String) (allowActive : Bool)
    (staleBefore : Option ℕ) : Row :=
  match row.reverseRecovery with
  | none => row
  | some schedule =>
    let previousWorker := row.reverseWorker.map Worker.id
    let notMine := if row.active then !allowActive || decide (previousWorker ≠ some workerId)
      else decide (previousWorker = some workerId) || decide (cfg.refreshName schedule.attempt ≠ workerId)
    let status := if row.active then
        ((row.reverseWorker.bind Worker.previousStatus) <|> schedule.previousStatus).getD row.status
      else schedule.previousStatus.getD row.status
    if (row.status = .pending ∨ row.status = .waiting) ∧ staleBefore.all (row.updatedAt < ·) ∧
        notMine = false ∧ (status = .pending ∨ status = .waiting ∨ status = .failed ∨ status = .cancelled) then
      { row with
        status := status
        updatedAt := now
        reverseRecovery := some (failedSchedule cfg schedule now)
        reverseWorker := some ⟨workerId,false,none⟩ }
    else row

def refreshReverseTask (cfg : Config) (row : Row) (control : Control) (now : ℕ)
    (workspaceId revision : String) : Option Row :=
  match row.reverseRecovery with
  | none => none
  | some schedule =>
    if (row.status = .pending ∨ row.status = .waiting ∨ row.status = .failed ∨ row.status = .cancelled) ∧
        row.active = false ∧ schedule.attempt < maxAttempt ∧ row.workspaceId = some workspaceId ∧
        control.workspaceId = workspaceId ∧ control.runId = schedule.runId ∧ control.revision = revision ∧
        control.revision = schedule.revision ∧ control.terminal = false then
      some { row with
        status := .pending
        updatedAt := now
        reverseRecovery := some { schedule with
          previousStatus := if row.status = .cancelled then some row.status
            else some (schedule.previousStatus.getD row.status)
          suspended := false
          attempt := schedule.attempt + 1
          nextCheckAt := now
          deadline := now + cfg.day } }
    else none

end Row

inductive Action where
  | elapse (duration : ℕ)
  | control (control : Control)
  | start (workerId workspaceId : String)
  | startRecovery (workerId workspaceId revision : String) (refreshAttempt : Option ℕ)
  | heartbeat (workerId : String)
  | finish (workerId : String) (status : Status) (schedule : Option Schedule)
  | wait (workerId runId revision : String) (previous : Option Schedule)
  | refreshFailed (workerId : String) (stopAutomaticChecks : Bool)
  | cancel (workspaceId : String)
  | cancelPod
  | closeStale
  | failReverseWorker (workerId : String)
  | recordFailure (workerId : String) (allowActive : Bool) (staleBefore : Option ℕ)
  | refresh (workspaceId revision : String)
  deriving DecidableEq, Repr

namespace Task

def setLife (s : Task) (workerId : String) (life : Life) : Task :=
  { s with workers := Function.update s.workers workerId life }

def onRow (s : Task) (f : Row → Row) : Task := { s with row := s.row.map f }

def isRunning (s : Task) (workerId : String) : Bool :=
  match s.workers workerId with
  | .running _ => true
  | _ => false

def finish (s : Task) (workerId : String) (status : Status) (schedule : Option Schedule) : Option Task :=
  if s.isRunning workerId then
    some ((s.onRow (·.finish s.clock workerId status schedule)).setLife workerId .ended)
  else none

def wait (cfg : Config) (s : Task) (workerId runId revision : String) (previous : Option Schedule) :
    Option Task :=
  let schedule := Row.nextRecoveryCheck cfg runId revision previous s.clock
  s.finish workerId (if schedule.isSome then .pending else .failed) (schedule <|> previous)

def refreshFailed (cfg : Config) (s : Task) (workerId : String) (stopAutomaticChecks : Bool) : Option Task :=
  if s.workers workerId = .running true then
    match s.row with
    | none => some (s.setLife workerId .ended)
    | some row =>
      (row.refreshFailed cfg s.clock workerId stopAutomaticChecks).map fun row' =>
        { s with row := some row' }.setLife workerId .ended
  else none

def start (s : Task) (workerId workspaceId : String) : Option Task :=
  match s.row with
  | some _ => none
  | none =>
    some ({ s with row := some ⟨.running,some workspaceId,none,some ⟨workerId,true,none⟩,s.clock⟩ }.setLife
      workerId (.running false))

def startRecovery (s : Task) (workerId workspaceId revision : String) (refreshAttempt : Option ℕ) :
    Option Task :=
  (s.row.bind (·.start s.control s.clock workerId workspaceId revision refreshAttempt)).map fun row =>
    { s with row := some row }.setLife workerId (.running true)

def heartbeat (s : Task) (workerId : String) : Task :=
  s.onRow fun row =>
    if (row.status = .running ∨ row.status = .pending) ∧ row.activeAs workerId then
      { row with updatedAt := s.clock } else row

def cancelPod (s : Task) : Task :=
  match s.row with
  | none => { s with row := some ⟨.cancelled,none,none,none,s.clock⟩ }
  | some row => { s with row := some (row.cancel s.clock) }

def failReverseWorker (s : Task) (workerId : String) : Task :=
  match s.row with
  | none => { s with row := some ⟨.failed,none,none,none,s.clock⟩ }
  | some row => { s with row := some (row.failReverseWorker s.clock workerId) }

def step (cfg : Config) (s : Task) : Action → Option Task
  | .elapse duration => some { s with clock := s.clock + duration }
  | .control control => some { s with control := control }
  | .start workerId workspaceId => s.start workerId workspaceId
  | .startRecovery workerId workspaceId revision refreshAttempt =>
    s.startRecovery workerId workspaceId revision refreshAttempt
  | .heartbeat workerId => some (s.heartbeat workerId)
  | .finish workerId status schedule => s.finish workerId status schedule
  | .wait workerId runId revision previous => s.wait cfg workerId runId revision previous
  | .refreshFailed workerId stopAutomaticChecks => s.refreshFailed cfg workerId stopAutomaticChecks
  | .cancel workspaceId =>
    some (s.onRow fun row => if row.workspaceId = some workspaceId then row.cancel s.clock else row)
  | .cancelPod => some s.cancelPod
  | .closeStale => some (s.onRow (·.closeStale s.clock 120000))
  | .failReverseWorker workerId => some (s.failReverseWorker workerId)
  | .recordFailure workerId allowActive staleBefore =>
    some (s.onRow (·.recordReverseRefreshFailure cfg s.clock workerId allowActive staleBefore))
  | .refresh workspaceId revision =>
    (s.row.bind (·.refreshReverseTask cfg s.control s.clock workspaceId revision)).map fun row =>
      { s with row := some row }

end Task

def tasks (cfg : Config) : System Task Action where
  initial s := s.row = none ∧ ∀ w, s.workers w = .absent
  step := Task.step cfg

end Jitsu.SyncTasks
