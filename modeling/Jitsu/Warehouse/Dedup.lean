import Jitsu.Lib.Program
import Jitsu.Lib.Winners
import Jitsu.Warehouse.Batch

namespace Jitsu.Warehouse

open Lib Program Program.Prog

variable {F T : Type}

def Object.getN (object : Object F T) (col : String) : Value F T := (object.get col).getD .null

def digitChars36 : List Char := "0123456789abcdefghijklmnopqrstuvwxyz".toList

def digits36 (n : ℕ) : List Char :=
  if n = 0 then ['0'] else (Nat.digits 36 n).reverse.map fun d => digitChars36.getD d '0'

def formatInt36 (i : ℤ) : String :=
  String.ofList ((if i < 0 then ['-'] else []) ++ digits36 i.natAbs)

def needHeader : Bool := false

def marshallerHeaderRows : ℕ := if needHeader then 1 else 0

def compareStrings (a b : String) : ℤ := if a < b then -1 else if a = b then 0 else 1

structure DeduplicationLine (F T : Type) where
  lineNumber : ℕ
  discriminator : Value F T

structure BatchFile (F T : Type) where
  lines : List (Object F T)
  skipLines : Finset ℕ
  encoderFailed : Bool

structure DedupState (F T : Type) where
  inited : Bool := false
  batch : Batch
  file : Option (List (Object F T)) := none
  encoderFailed : Bool := false
  eventsInBatch : ℕ := 0
  linesByPK : OrderedMap String ℕ := .empty
  linesByPKDisc : OrderedMap String (DeduplicationLine F T) := .empty
  skipLines : Finset ℕ := ∅
  successfulRows : ℕ := 0
  loaded : List (BatchFile F T) := []

inductive DedupFailure where
  | primaryKey | database | file | encode | panic | mapping (e : MapError)
  deriving DecidableEq, Repr

structure DedupSettings (F T : Type) extends Settings F T where
  pkColumns : List String
  keyed : pkColumns ≠ []
  discriminatorColumn : Option String
  temporaryBatchSize : ℕ
  unixNano : T → ℤ
  rank : F → Option ℤ
  encodes : Object F T → Bool

abbrev Dedup (F T α : Type) := Prog Bool (DedupState F T) DedupFailure α

def BatchFile.kept (f : BatchFile F T) : List (Object F T) :=
  (f.lines.zipIdx.filter fun line => line.2 % 2 ^ 32 ∉ f.skipLines).map Prod.fst

namespace DedupSettings

variable (cfg : DedupSettings F T)

def sprint (v : Value F T) : String := cfg.options.sqlAdapter.codec.sprint v

def unixMilli (t : T) : ℤ := cfg.unixNano t / 1000000

def compareFloats (a b : F) : ℤ :=
  match cfg.rank a, cfg.rank b with
  | some x, some y => if x = y then 0 else if y < x then 1 else -1
  | _, _ => -1

def compareTimes (a b : T) : ℤ :=
  if cfg.unixNano a < cfg.unixNano b then -1 else if cfg.unixNano b < cfg.unixNano a then 1 else 0

def compareAny : Value F T → Value F T → Option ℤ
  | .null, .null => some 0
  | .null, _ => some (-1)
  | _, .null => some 1
  | .string a, .string b => some (compareStrings a b)
  | .int .int a, .int .int b => some ((a - b).bmod (2 ^ 64))
  | .int .int64 a, .int .int64 b => some ((a - b).bmod (2 ^ 64))
  | .float .float64 a, .float .float64 b => some (cfg.compareFloats a b)
  | .time a, .time b => some (cfg.compareTimes a b)
  | .array _, .array _ => none
  | .collection _, .collection _ => none
  | _, _ => some 0

def pkText : Value F T → String
  | .string s => s
  | v => cfg.sprint v

def pkPart : Value F T → String
  | .null => "<nil>"
  | .string s => s
  | .time t => formatInt36 (cfg.unixMilli t)
  | v => cfg.sprint v

def getPKValue (object : Object F T) : Option String :=
  match cfg.pkColumns with
  | [] => none
  | [col] => some (cfg.pkText (object.getN col))
  | cols => some (String.ofList (['\x00'].intercalate
    (cols.map fun col => (cfg.pkPart (object.getN col)).toList)))

def attempt (e : DedupFailure) : Dedup F T Unit := do
  let ok ← ask
  if ok then pure () else throw e

def attempted (m : Dedup F T Unit) : Dedup F T (Option DedupFailure) :=
  catching (do
    m
    pure none) fun e => pure (some e)

def initTmpFile : Dedup F T Unit := do
  let s ← get
  if s.file.isSome then pure ()
  else do
    attempt .file
    modify fun s => { s with file := some [], encoderFailed := false }

def init : Dedup F T Unit := do
  let s ← get
  if s.inited then pure ()
  else do
    initTmpFile
    attempt .database
    modify fun s => { s with inited := true }

def forgetLines (s : DedupState F T) :
    DedupState F T := { s with linesByPK := .empty, linesByPKDisc := .empty }

def closeFile (s : DedupState F T) : DedupState F T :=
  { s with skipLines := ∅, file := none, eventsInBatch := 0 }

def loadFile (s : DedupState F T) : DedupState F T :=
  { s with loaded := s.loaded ++ (s.file.map fun lines => ⟨lines,s.skipLines,s.encoderFailed⟩).toList }

def flushing : Dedup F T Unit := do
  let s ← get
  if s.file.isSome ∧ 0 < s.eventsInBatch then do
    attempt .file
    attempt .database
    attempt .file
    attempt .database
    modify loadFile
  else pure ()

def flushBatchFile : Dedup F T (Option DedupFailure) := do
  modify forgetLines
  let err ← attempted flushing
  let s ← get
  modify closeFile
  if s.file.isSome then pure err else throw .panic

def noteDiscriminator (lineNumber : ℕ) (pk : String) (v : Value F T) (s : DedupState F T) :
    Option (DedupState F T) :=
  match s.linesByPKDisc.get pk with
  | none => some { s with linesByPKDisc := s.linesByPKDisc.set pk ⟨lineNumber,v⟩ }
  | some prevLine =>
    match cfg.compareAny v prevLine.discriminator with
    | none => none
    | some cmpr =>
      if 0 ≤ cmpr then some { s with
        skipLines := insert prevLine.lineNumber s.skipLines
        linesByPKDisc := s.linesByPKDisc.set pk ⟨lineNumber,v⟩ }
      else some { s with skipLines := insert lineNumber s.skipLines }

def noteLast (lineNumber : ℕ) (pk : String) (s : DedupState F T) : DedupState F T :=
  { s with
    skipLines := match s.linesByPK.get pk with
      | some prevLineNumber => insert prevLineNumber s.skipLines
      | none => s.skipLines
    linesByPK := s.linesByPK.set pk lineNumber }

def noteLine (object : Object F T) (s : DedupState F T) : Except DedupFailure (DedupState F T) :=
  match cfg.getPKValue object with
  | none => .error .primaryKey
  | some pk =>
    let lineNumber := (s.eventsInBatch + marshallerHeaderRows) % 2 ^ 32
    match cfg.discriminatorColumn with
    | none => .ok (noteLast lineNumber pk s)
    | some col =>
      match cfg.noteDiscriminator lineNumber pk (object.getN col) s with
      | some s => .ok s
      | none => .error .panic

def marshal (object : Object F T) : Dedup F T (Option DedupFailure) := do
  let s ← get
  if s.encoderFailed ∨ cfg.encodes object = false then do
    modify fun s => { s with encoderFailed := true }
    pure (some .encode)
  else do
    modify fun s => { s with
      file := s.file.map (· ++ [object])
      eventsInBatch := (s.eventsInBatch + 1) % 2 ^ 32 }
    pure none

def flushFull : Dedup F T (Option DedupFailure) := do
  let s ← get
  if 0 < cfg.temporaryBatchSize ∧ cfg.temporaryBatchSize ≤ s.eventsInBatch then do
    let err ← flushBatchFile
    if err.isSome then pure err else attempted initTmpFile
  else pure none

def deduplicate (object : Object F T) : Dedup F T (Option DedupFailure) := do
  let s ← get
  match cfg.noteLine object s with
  | .error e => if e = .panic then throw e else pure (some e)
  | .ok noted => do
    modify fun _ => noted
    cfg.marshal object

variable [DecidableEq F]

def writeToBatchFile (dwh : DWHEnvelope F T) : Dedup F T (Option DedupFailure) := do
  let err ← cfg.flushFull
  if err.isSome then pure err
  else do
    let s ← get
    let adjusted := cfg.adjustTables s.batch dwh
    modify fun s => { s with batch := adjusted.1 }
    cfg.deduplicate adjusted.2

def consume (a : Arrival F T) : Dedup F T (Option DedupFailure) := do
  let err ← attempted init
  if err.isSome then pure err
  else match cfg.preprocess a.skipTypeHints a.object with
    | .error e => pure (some (.mapping e))
    | .ok dwh => do
      let err ← cfg.writeToBatchFile dwh
      modify fun s => { s with
        successfulRows := if err.isNone then s.successfulRows + 1 else s.successfulRows }
      pure err

def completing : Dedup F T (Option DedupFailure) := do
  let s ← get
  if 0 < s.successfulRows then flushBatchFile else pure none

def consumeAll : List (Arrival F T) → Dedup F T Unit
  | [] => pure ()
  | a :: rest => do
    let _ ← cfg.consume a
    consumeAll rest

def load (arrivals : List (Arrival F T)) : Dedup F T (Option DedupFailure) := do
  cfg.consumeAll arrivals
  completing

def opening : DedupState F T := { batch := cfg.start }

end DedupSettings

end Jitsu.Warehouse
