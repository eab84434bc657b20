import Mathlib

namespace Jitsu.Failover

abbrev Payload := List UInt8

def newline : UInt8 := 10

def linesFrom (line : Payload) : List UInt8 → List Payload
  | [] => []
  | b :: bs => if b = newline then line.reverse :: linesFrom [] bs else linesFrom (b :: line) bs

def lines (content : List UInt8) : List Payload := linesFrom [] content

structure File where
  content : List UInt8
  modTime : ℕ
  deriving DecidableEq

inductive Kind where
  | tmp | rotating | compressed
  | stored (basePath : String)
  deriving DecidableEq

abbrev Row := Kind → Option File

def Row.rename (row : Row) (source target : Kind) : Row :=
  match row source with
  | none => row
  | some f => Function.update (Function.update row source none) target (some f)

inductive Destination where
  | file (basePath : String) (maxOldFiles : ℕ)
  | s3 (folder : String)
  deriving DecidableEq

structure Config where
  compressOnRotate : Bool
  destinations : List Destination

inductive Phase where
  | rotated
  | copied
  | storing (finalPath : Kind) (rest : List Destination)
  deriving DecidableEq

structure Job where
  stamp : ℕ
  phase : Phase
  deriving DecidableEq

structure Logger where
  now : ℕ
  fs : ℕ → Row
  objects : String → ℕ → Option File
  current : ℕ
  isOpen : Bool
  currentSize : ℕ
  closed : Bool
  waiting : List Payload
  closing : Option (ℕ × ℕ)
  spawned : ℕ
  jobs : ℕ → Option Job
  logged : ℕ → List Payload
  removed : ℕ → Bool

inductive WriteOutcome where
  | written
  | failed (residue : Payload)
  deriving DecidableEq

inductive RotateOutcome where
  | rotated
  | renameFailed
  | openFailed (restored : Bool)
  deriving DecidableEq

inductive CompressOutcome where
  | done
  | failed (residue : Option (List UInt8))
  deriving DecidableEq

inductive Action where
  | elapse (seconds : ℕ)
  | call (payload : Payload)
  | write (payload : Payload) (outcome : WriteOutcome)
  | rotate (outcome : RotateOutcome)
  | compress (job : ℕ) (outcome : CompressOutcome)
  | unlink (job : ℕ) (success : Bool)
  | store (job : ℕ) (success : Bool) (oldest : List ℕ)
  | closeBegin
  | closeFinish (outcome : RotateOutcome)
  deriving DecidableEq

namespace Logger

variable (s : Logger)

def setFile (t : ℕ) (k : Kind) (f : Option File) : Logger :=
  { s with fs := Function.update s.fs t (Function.update (s.fs t) k f) }

def setJob (k : ℕ) (j : Option Job) : Logger := { s with jobs := Function.update s.jobs k j }

def appendBytes (bytes : List UInt8) : Logger :=
  s.setFile s.current .tmp ((s.fs s.current .tmp).map (fun f => ⟨f.content ++ bytes,s.now⟩))

def succeed (payload : Payload) : Logger :=
  { s with logged := Function.update s.logged s.current (s.logged s.current ++ [payload]) }

def call (payload : Payload) : Logger :=
  if s.closed then s.succeed payload else { s with waiting := s.waiting ++ [payload] }

def logPayload (payload : Payload) : WriteOutcome → Option Logger
  | .written =>
    if payload ∉ s.waiting then none
    else if !s.isOpen then some { s with waiting := s.waiting.erase payload }
    else some { (s.appendBytes (payload ++ [newline])).succeed payload with
      waiting := s.waiting.erase payload, currentSize := s.currentSize + (payload.length + 1) }
  | .failed residue =>
    if payload ∉ s.waiting ∨ ¬residue <+: payload then none
    else if !s.isOpen then some { s with waiting := s.waiting.erase payload }
    else some { s.appendBytes residue with waiting := s.waiting.erase payload }

def openNewFile : Logger :=
  { s.setFile s.now .tmp (some ((s.fs s.now .tmp).getD ⟨[],s.now⟩)) with
    current := s.now, isOpen := true, currentSize := 0 }

def spawn (cfg : Config) (t : ℕ) : Logger :=
  { s.setJob s.spawned (some ⟨t,if cfg.compressOnRotate then .rotated
      else .storing .rotating cfg.destinations⟩) with spawned := s.spawned + 1 }

def renameIn (t : ℕ) (source target : Kind) : Logger :=
  { s with fs := Function.update s.fs t ((s.fs t).rename source target) }

def rotate (cfg : Config) (outcome : RotateOutcome) : Logger :=
  if s.currentSize = 0 ∨ s.isOpen = false then s
  else if (s.fs s.current .tmp).isNone then { s with isOpen := false }
  else match outcome with
    | .renameFailed => { s with isOpen := false }
    | .openFailed restored =>
      let renamed := { s.renameIn s.current .tmp .rotating with isOpen := false }
      if restored then renamed.renameIn s.current .rotating .tmp else renamed
    | .rotated => ((s.renameIn s.current .tmp .rotating).openNewFile).spawn cfg s.current

def compressFile (k : ℕ) (outcome : CompressOutcome) : Option Logger :=
  match s.jobs k with
  | some ⟨t,.rotated⟩ => match s.fs t .rotating with
    | none => some (s.setJob k none)
    | some f => match outcome with
      | .done => some ((s.setFile t .compressed (some ⟨f.content,s.now⟩)).setJob k (some ⟨t,.copied⟩))
      | .failed none => some (s.setJob k none)
      | .failed (some residue) => some ((s.setFile t .compressed (some ⟨residue,s.now⟩)).setJob k none)
  | _ => none

def unlink (cfg : Config) (k : ℕ) (success : Bool) : Option Logger :=
  match s.jobs k with
  | some ⟨t,.copied⟩ =>
    some ((if success then s.setFile t .rotating none else s).setJob k
      (some ⟨t,.storing .compressed cfg.destinations⟩))
  | _ => none

def storedIn (basePath : String) : List ℕ :=
  (List.range (s.now + 1)).filter (fun t => (s.fs t (.stored basePath)).isSome)

def modTime (basePath : String) (t : ℕ) : ℕ := ((s.fs t (.stored basePath)).map File.modTime).getD 0

def Oldest (basePath : String) (maxOldFiles : ℕ) (oldest : List ℕ) : Prop :=
  oldest.Nodup ∧ (∀ t ∈ oldest, t ∈ s.storedIn basePath) ∧
    oldest.length = (if maxOldFiles = 0 then 0 else (s.storedIn basePath).length - maxOldFiles) ∧
    ∀ t ∈ oldest, ∀ t' ∈ s.storedIn basePath, t' ∉ oldest → s.modTime basePath t ≤ s.modTime basePath t'

instance (basePath : String) (maxOldFiles : ℕ) (oldest : List ℕ) :
    Decidable (s.Oldest basePath maxOldFiles oldest) :=
  inferInstanceAs (Decidable (_ ∧ _ ∧ _ ∧ _))

def removeStored (basePath : String) (s : Logger) (t : ℕ) : Logger :=
  if (s.fs t (.stored basePath)).isSome then
    { s.setFile t (.stored basePath) none with removed := Function.update s.removed t true }
  else s

def cleanupOldFiles (basePath : String) (maxOldFiles : ℕ) (oldest : List ℕ) : Option Logger :=
  if s.Oldest basePath maxOldFiles oldest then some (oldest.foldl (removeStored basePath) s) else none

def putObject (folder : String) (t : ℕ) (f : File) : Logger :=
  { s with objects := Function.update s.objects folder (Function.update (s.objects folder) t (some f)) }

def store (k : ℕ) (success : Bool) (oldest : List ℕ) : Option Logger :=
  match s.jobs k with
  | some ⟨t,.storing finalPath (d :: rest)⟩ =>
    let next := s.setJob k (some ⟨t,.storing finalPath rest⟩)
    match s.fs t finalPath with
    | none => some next
    | some f =>
      if !success then some next
      else match d with
        | .file basePath maxOldFiles =>
          (next.renameIn t finalPath (.stored basePath)).cleanupOldFiles basePath maxOldFiles oldest
        | .s3 folder => some (next.putObject folder t f)
  | _ => none

def closeBegin : Option Logger :=
  if s.closing.isSome then none
  else some { s with closed := true, closing := some (s.current,s.currentSize) }

def closeFinish (cfg : Config) (outcome : RotateOutcome) : Option Logger :=
  match s.closing with
  | none => none
  | some (t,0) => some { s.setFile t .tmp none with
      closing := none, isOpen := if s.current = t then false else s.isOpen }
  | some (_,_ + 1) => some { s.rotate cfg outcome with closing := none }

def step (cfg : Config) : Action → Option Logger
  | .elapse seconds => some { s with now := s.now + seconds }
  | .call payload => some (s.call payload)
  | .write payload outcome => s.logPayload payload outcome
  | .rotate outcome => some (s.rotate cfg outcome)
  | .compress k outcome => s.compressFile k outcome
  | .unlink k success => s.unlink cfg k success
  | .store k success oldest => s.store k success oldest
  | .closeBegin => s.closeBegin
  | .closeFinish outcome => s.closeFinish cfg outcome

end Logger

def newFailoverLogger (now : ℕ) : Logger where
  now := now
  fs := Function.update (fun _ _ => none) now (Function.update (fun _ => none) .tmp (some ⟨[],now⟩))
  objects _ _ := none
  current := now
  isOpen := true
  currentSize := 0
  closed := false
  waiting := []
  closing := none
  spawned := 0
  jobs _ := none
  logged _ := []
  removed _ := false

end Jitsu.Failover
