import Jitsu.Lib.Log

namespace Jitsu.Bulker

open Jitsu.Log

inductive IntHeader where
  | absent
  | value (n : ℤ)
  | malformed (parsed : ℤ)
  deriving DecidableEq, Repr

def getKafkaIntHeader : IntHeader → ℤ × Bool
  | .absent => (0,true)
  | .value n => (n,true)
  | .malformed parsed => (parsed,false)

structure Message where
  id : ℕ
  size : ℕ
  retries : IntHeader
  originalTopic : String
  retryTime : Option ℕ
  error : String
  deriving DecidableEq, Repr

def shortenStringWithEllipsis (text : String) (n : ℕ) : String :=
  if text.length ≤ n then text else String.ofList (text.toList.take n) ++ "..."

structure Config where
  topicId : String
  retryTopic : String
  bulkerType : String
  batchSize : ℕ
  batchSizeBytes : ℕ
  retryConsumerBatchSize : ℕ
  messagesRetryCount : ℕ
  backOffDelay : ℤ → ℕ
  topicId_named : topicId ≠ ""
  topicId_distinct : topicId ≠ retryTopic

def sampleConfig : Config where
  topicId := "orders"
  retryTopic := "retry"
  bulkerType := "postgres"
  batchSize := 10
  batchSizeBytes := 0
  retryConsumerBatchSize := 10
  messagesRetryCount := 5
  backOffDelay _ := 0
  topicId_named := by decide
  topicId_distinct := by decide

def sampleMessage (id : ℕ) : Message := ⟨id,1,.absent,"",none,""⟩

def newError (cfg : Config) (text : String) : String := "[" ++ cfg.topicId ++ "] " ++ text

def retryBackOffTime (cfg : Config) (now : ℕ) (attempt : ℤ) : ℕ := now + cfg.backOffDelay attempt

inductive Target where
  | retry
  | deadLetter
  deriving DecidableEq, Repr

structure Produced where
  offset : ℕ
  target : Target
  message : Message
  deriving DecidableEq, Repr

def failedTarget (cfg : Config) (m : Message) : Target :=
  if (cfg.messagesRetryCount : ℤ) ≤ (getKafkaIntHeader m.retries).1 then .deadLetter else .retry

def failedMessage (cfg : Config) (originalErr : String) (now : ℕ) (m : Message) : Message :=
  let retries := (getKafkaIntHeader m.retries).1
  { m with
    error := shortenStringWithEllipsis originalErr 256
    originalTopic := cfg.topicId
    retries := .value retries
    retryTime := some (retryBackOffTime cfg now (retries + 1)) }

inductive ReadReply where
  | message
  | timedOut
  | failed (retriable : Bool)
  deriving DecidableEq, Repr

inductive Fetched where
  | message (offset : ℕ) (m : Message) (sub : Subscription Message)
  | timedOut
  | failed (retriable : Bool)

def readMessage (sub : Subscription Message) : ReadReply → Fetched
  | .timedOut => .timedOut
  | .failed retriable => .failed retriable
  | .message =>
    match next sub.log sub.position with
    | none => .timedOut
    | some (o,m) => .message o m (sub.seek (o + 1))

theorem readMessage_message {sub sub' : Subscription Message} {reply : ReadReply} {o : ℕ} {m : Message}
    (h : readMessage sub reply = .message o m sub') :
    next sub.log sub.position = some (o,m) ∧ sub' = sub.seek (o + 1) := by
  cases reply with
  | timedOut => cases h
  | failed retriable => cases h
  | message =>
    rw [readMessage] at h
    split at h
    · cases h
    · rename_i hn
      cases h
      exact ⟨hn,rfl⟩

inductive Commit where
  | ok
  | failed (applied : Bool)
  deriving DecidableEq, Repr

def Commit.applied : Commit → Bool
  | .ok => true
  | .failed applied => applied

def commitOffset (sub : Subscription Message) (reply : Commit) (offset : ℕ) : Subscription Message :=
  if reply.applied then sub.commit offset else sub

theorem commitOffset_position (sub : Subscription Message) (reply : Commit) (offset : ℕ) :
    (commitOffset sub reply offset).position = sub.position := by
  unfold commitOffset
  split <;> rfl

theorem commitOffset_log (sub : Subscription Message) (reply : Commit) (offset : ℕ) :
    (commitOffset sub reply offset).log = sub.log := by
  unfold commitOffset
  split <;> rfl

end Jitsu.Bulker
