import Mathlib

namespace Jitsu.ReadSideCar

inductive SyncMode where
  | fullRefresh
  | incremental
deriving DecidableEq

inductive BulkMode where
  | replaceTable
  | batch
deriving DecidableEq

inductive Status where
  | running
  | success
  | partially
  | failed
  | cancelled
  | timeExceeded
deriving DecidableEq

structure Chunk where
  mode : BulkMode
  rows : List ℕ
deriving DecidableEq

structure Unsaved where
  payload : String
  clock : ℕ
deriving DecidableEq

structure StreamStat where
  eventsCount : ℕ
  bytesProcessed : ℕ
  status : Status
  error : String
deriving DecidableEq

structure ActiveStream extends StreamStat where
  mode : SyncMode
  bulkerMode : BulkMode
  bufferedEventsCount : ℕ
  bufferedBytes : ℕ
  unsavedState : Option Unsaved
  closed : Bool
  bulkerStream : Option Chunk
  errorFromLogs : String
  noTrustworthyError : Bool
deriving DecidableEq

def interruptError : String := "Stream was interrupted. Check logs for errors."

def somethingWentWrongError : String :=
  "Something went wrong in the connector. See the logs for more details."

def cancelledError : String := "Sync job was cancelled"

def nvlString (first second : String) : String := if first = "" then second else first

def newActiveStream (mode : SyncMode) (bulkerMode : BulkMode) : ActiveStream where
  eventsCount := 0
  bytesProcessed := 0
  status := .running
  error := ""
  mode := mode
  bulkerMode := bulkerMode
  bufferedEventsCount := 0
  bufferedBytes := 0
  unsavedState := none
  closed := false
  bulkerStream := none
  errorFromLogs := ""
  noTrustworthyError := false

namespace ActiveStream

variable (s : ActiveStream)

def rows : List ℕ := s.bulkerStream.elim [] Chunk.rows

def isActive : Bool := s.bulkerStream.isSome && s.error = ""

def begin (name : String) (chunk : Chunk) : Except String ActiveStream :=
  if s.closed then .error ("Stream '" ++ name ++ "' is already closed")
  else if s.bulkerStream.isSome then .error ("Stream '" ++ name ++ "' is already started")
  else .ok { s with bulkerStream := some chunk, status := .running }

def abort : ActiveStream := { s with bulkerStream := none }

def drained : ActiveStream :=
  { s with bufferedEventsCount := 0, bufferedBytes := 0, bulkerStream := none }

def commit (strict : Bool) (answer : Option String) : ActiveStream × Option Chunk :=
  match s.bulkerStream with
  | none => (s.drained,none)
  | some chunk =>
    if s.error ≠ "" then (s.drained,none)
    else if strict ∧ s.errorFromLogs ≠ "" then ({ s.drained with error := s.errorFromLogs },none)
    else match answer with
      | some err => ({ s.drained with error := err },none)
      | none =>
        ({ s.drained with
            eventsCount := s.eventsCount + s.bufferedEventsCount
            bytesProcessed := s.bytesProcessed + s.bufferedBytes },some chunk)

def interrupt (cancelled : Bool) : ActiveStream :=
  if s.error = "" ∧ ¬cancelled then
    { s.abort with error := nvlString s.errorFromLogs interruptError, noTrustworthyError := true }
  else s.abort

def conclude (cancelled : Bool) : ActiveStream :=
  if s.error ≠ "" then { s with status := if 0 < s.eventsCount then .partially else .failed, closed := true }
  else if cancelled then
    if 0 < s.eventsCount then { s with status := .partially, error := cancelledError, closed := true }
    else { s with status := .cancelled, closed := true }
  else if s.status = .running then { s with status := .success, closed := true }
  else { s with closed := true }

def close (complete cancelled strict : Bool) (answer : Option String) : ActiveStream × Option Chunk :=
  if complete then ((s.commit strict answer).1.conclude cancelled,(s.commit strict answer).2)
  else ((s.interrupt cancelled).conclude cancelled,none)

def consume (row size : ℕ) (refusal : Option String) : ActiveStream × Option String :=
  if s.error ≠ "" then (s,none)
  else match refusal with
    | some err => (s,some err)
    | none =>
      ({ s with
          bulkerStream := s.bulkerStream.map (fun c => { c with rows := c.rows ++ [row] })
          bufferedEventsCount := s.bufferedEventsCount + 1
          bufferedBytes := s.bufferedBytes + size },none)

def registerError (err : String) : ActiveStream :=
  if s.error = "" ∨ s.noTrustworthyError then
    { s with error := err, bufferedEventsCount := 0, bufferedBytes := 0 }
  else s

end ActiveStream

end Jitsu.ReadSideCar
