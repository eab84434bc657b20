import Jitsu.Lib.Program
import Jitsu.ReverseEtl.Compaction

namespace Jitsu.ReverseEtl
open Checked Std Program

variable {J : Type}

inductive Transport where
  | ok
  | failed
  | ambiguous
  deriving DecidableEq, Repr

structure Reply where
  transport : Transport
  aborted : Bool
  now : ℕ
  deriving DecidableEq, Repr

structure Cell (J : Type) where
  db : Db J
  session : Session J

def Db.put (db : Db J) (row : ControlRow J) (saved : Option (Envelope J)) : Db J :=
  { db.update row with saved := Function.update db.saved row.syncId saved }

namespace Cell

def row (c : Cell J) : Option (ControlRow J) := c.db.control c.session.scope.key

def saved (c : Cell J) : Option (Envelope J) := c.db.saved c.session.scope.syncId

def view (c : Cell J) (row : ControlRow J) : View J := ⟨c.session,row,c.saved⟩

def write (c : Cell J) (row : ControlRow J) (saved : Option (Envelope J)) : Cell J :=
  { c with db := c.db.put row saved }

def advance (c : Cell J) (d : Draft J) (l : LocalIndex J) : Cell J :=
  { c with session := c.session.advance d l }

def markBroken (c : Cell J) : Cell J := { c with session := { c.session with broken := true } }

end Cell

def corruptArtifact : Failure :=
  .artifact "Reverse ETL recovery artifact is missing or corrupt; delivery blocked"

def commitLost : Failure := .database "COMMIT response was lost"

abbrev Op (J : Type) := Prog Reply (Cell J) Failure

namespace Op

def assertUsable : Op J Unit := do
  let c ← Prog.get
  .lift (require (c.session.broken = false) "Artifact session requires reopening after a failed commit")

def observe : Op J (ControlRow J) := do
  match (← Prog.get).row with
  | some row => pure row
  | none => .throw (.persistence "Run state missing or changed")

def current : Op J (ControlRow J) := do
  assertUsable
  let r ← Prog.ask
  .lift (ensure (r.transport = .ok) (.database "Control row is unavailable"))
  observe

def abandon (e : Failure) : Op J Unit := do
  .modify Cell.markBroken
  .throw e

def settle (d : Draft J) : Op J Unit := do
  let c ← Prog.get
  match d.after c.session.localIndex with
  | .ok l => .modify fun c => c.advance d l
  | .error e => do
    .modify fun c => c.advance d c.session.localIndex
    .throw e

def transact [DecidableEq J] (env : Env J) (s : Session J) (d : Draft J) (t : Transport)
    (old : ControlRow J) : Op J Unit := do
  let c ← Prog.get
  match publishTx env s.scope s.headBytes (d.edit.apply s.head) d old c.saved with
  | .error (.transitionConflict message) => .throw (.transitionConflict message)
  | .error e => abandon e
  | .ok (row,saved) => do
    .modify fun c => c.write row saved
    if t = .ambiguous then abandon commitLost else pure ()

def commit [DecidableEq J] (env : Env J) (s : Session J) (d : Draft J) : Op J Unit := do
  let upload ← Prog.ask
  .lift (ensure (upload.aborted = false) .aborted)
  .lift (ensure (d.edit.apply s.head = s.head ∨ upload.transport = .ok)
    (.artifact "Reverse ETL artifact upload failed; no delivery is authorized"))
  let r ← Prog.ask
  if r.transport = .failed then abandon (.database "Transaction failed")
  else
    match (← Prog.get).row with
    | none => abandon (.persistence "Run state missing or changed")
    | some old => transact env s d r.transport old

def publish [DecidableEq J] (env : Env J) (d : Draft J) : Op J Unit := do
  assertUsable
  let c ← Prog.get
  commit env c.session d
  settle d

def perform [DecidableEq J] (env : Env J) (plan : ℕ → View J → Except Failure (Option (Draft J))) :
    Op J Unit := do
  let row ← current
  let r ← Prog.ask
  .lift (ensure (r.transport = .ok) corruptArtifact)
  let c ← Prog.get
  match ← Prog.lift (plan r.now (c.view row)) with
  | none => pure ()
  | some d => publish env d

variable [DecidableEq J] (env : Env J)

def plainly (plan : View J → Except Failure (Draft J)) (_ : ℕ) (v : View J) :
    Except Failure (Option (Draft J)) :=
  some <$> plan v

def prepareInit (store : J) : Op J Unit :=
  perform env (plainly fun v => ReverseEtl.prepareInit env store v.session v.row)

def acknowledgeInit (store : J) : Op J Unit :=
  perform env (plainly fun v => ReverseEtl.acknowledgeInit env store v.session v.row)

def resetInitAfterReconciliation (store : J) : Op J Unit :=
  perform env fun _ v => ReverseEtl.resetInitAfterReconciliation env store v.session v.row

def saveProviderState (state : J) : Op J Unit :=
  perform env (plainly fun v => ReverseEtl.saveProviderState env state v.row)

def prepare (batch : PreparedBatch J) (store : J) (independent : Bool) : Op J Unit :=
  perform env (plainly fun v => ReverseEtl.prepare env batch store independent v.session v.row)

def markUnknown (id : String) : Op J Unit :=
  perform env fun _ v => ReverseEtl.markUnknown id v.session v.row

def ack (id : String) (input : BatchResult J) (store : J) (reconciled : Bool) (finishAt : Option ℕ) :
    Op J Unit :=
  perform env fun now v => ReverseEtl.ack env id input store reconciled finishAt now v.session v.row

def acknowledge (id : String) (result : BatchResult J) (store : J) : Op J Unit :=
  ack env id result store false none

def acknowledgeRecovered (id : String) (result : BatchResult J) (store : J) : Op J Unit :=
  ack env id result store true none

def prepareAbort : Op J Unit := perform env (plainly fun v => ReverseEtl.prepareAbort v.session v.row)

def acknowledgeAbort : Op J Unit := perform env (plainly fun v => ReverseEtl.acknowledgeAbort v.row)

def prepareFinish (sequence : ℕ) (store : J) : Op J Unit :=
  perform env (plainly fun v => ReverseEtl.prepareFinish env sequence store v.session v.row)

def sealExtraction (sequence : ℕ) (store : J) : Op J Unit :=
  perform env (plainly fun v => ReverseEtl.sealExtraction env sequence store v.session v.row)

def detach : Op J Unit := perform env fun _ v => pure (ReverseEtl.detach v.session v.row)

def commitCheckpoint (point : ResumePoint) (store : J) (complete : Bool) : Op J Unit :=
  perform env (plainly fun v => ReverseEtl.commitCheckpoint env point store complete v.saved v.session v.row)

def resolveBatch (store : J) (time : ℕ) (b : BatchHead J) : Op J Unit :=
  match b.receiptData with
  | none => .throw corruptArtifact
  | some receipt => ack env b.id (resolvedResult receipt.result) store true (some time)

def resolveStaged (store : J) (time : ℕ) (bs : List (BatchHead J)) : Op J Unit :=
  bs.forM (resolveBatch env store time)

def acceptFinish : Op J Unit := do
  let c ← Prog.get
  let d ← .lift (ReverseEtl.acceptFinish c.session)
  publish env d

def finish (input : FinishResult J) (store : J) (reconciled : Bool) : Op J Unit := do
  let row ← current
  let r ← Prog.ask
  let c ← Prog.get
  match ← Prog.lift (finishPlan env input store reconciled r.now c.session row) with
  | .unchanged => pure ()
  | .resolve time draft => do
    draft.elim (pure ()) (publish env)
    if input.delivery = .pending then pure ()
    else
      let c ← Prog.get
      resolveStaged env store time (c.session.head.batches.filter (0 < ·.staged))
      acceptFinish env

def acknowledgeFinish (result : FinishResult J) (store : J) : Op J Unit := finish env result store false

def acknowledgeRecoveredFinish (result : FinishResult J) (store : J) : Op J Unit :=
  finish env result store true

def startSnapshot (refreshAfterMs : Option ℕ) (strategy : Strategy) : Op J Unit := do
  let row ← current
  let r ← Prog.ask
  let c ← Prog.get
  match ← Prog.lift (ReverseEtl.startSnapshot refreshAfterMs strategy r.now c.session row) with
  | none => pure ()
  | some p => do
    .modify fun c => { c with session := { c.session with pending := some p } }
    publish env { edit := .snapshot p }

def appendSnapshot (rows : List (String × List (Identity J))) (pageSequence : ℕ) : Op J Unit := do
  let row ← current
  let c ← Prog.get
  match ← Prog.lift (ReverseEtl.appendSnapshot env rows pageSequence c.session row) with
  | none => pure ()
  | some (l,p) => .modify fun c => { c with session := { c.session with localIndex := l, pending := some p } }

def sealSnapshot (counts : Option (ℕ × ℕ)) : Op J Unit :=
  perform env (plainly fun v => ReverseEtl.sealSnapshot env counts v.session v.row)

def openJournal (run : RunInput) (project : Project J) (recovery : Bool) : Op J Unit := do
  let row ← observe
  match row.artifactHead with
  | none => .throw (.persistence
      "Artifact head is required; legacy state requires an explicit test-sync reset")
  | some head => do
    let r ← Prog.ask
    .lift (ensure (r.transport = .ok) corruptArtifact)
    let l ← .lift (restore env row.mode head)
    if head.runId = run.logicalRunId then
      .modify fun c => { c with session := openSession run project recovery head l }
    else do
      let index ← .lift (compactIndex env row.mode head l)
      let compacted ← .lift (compactHead env run.logicalRunId index)
      let session := openSession run project recovery head index.retained
      let draft : Draft J := { edit := .reset compacted }
      commit env session draft
      .modify fun c => { c with session := session.advance draft index.retained }

def openLogicalRun (run : RunInput) (project : Project J) : Op J Unit := do
  .modify fun c => { c with session := .closed run project }
  let r ← Prog.ask
  .lift (ensure (r.transport ≠ .failed) (.database "Transaction failed"))
  let (db,recovery) ← .lift (openRun env run (emptyHead run.logicalRunId) (← Prog.get).db)
  .modify fun c => { c with db := db }
  .lift (ensure (r.transport = .ok) commitLost)
  openJournal env run project recovery

end Op

inductive Call (J : Type) where
  | prepareInit (store : J)
  | acknowledgeInit (store : J)
  | resetInitAfterReconciliation (store : J)
  | saveProviderState (state : J)
  | prepare (batch : PreparedBatch J) (store : J) (independent : Bool)
  | markUnknown (id : String)
  | acknowledge (id : String) (result : BatchResult J) (store : J)
  | acknowledgeRecovered (id : String) (result : BatchResult J) (store : J)
  | prepareAbort
  | acknowledgeAbort
  | prepareFinish (sequence : ℕ) (store : J)
  | acknowledgeFinish (result : FinishResult J) (store : J)
  | acknowledgeRecoveredFinish (result : FinishResult J) (store : J)
  | sealExtraction (sequence : ℕ) (store : J)
  | detach
  | commitCheckpoint (point : ResumePoint) (store : J) (complete : Bool)
  | startSnapshot (refreshAfterMs : Option ℕ) (strategy : Strategy)
  | appendSnapshot (rows : List (String × List (Identity J))) (pageSequence : ℕ)
  | sealSnapshot (counts : Option (ℕ × ℕ))
  | openRun (run : RunInput) (project : Project J)

variable [DecidableEq J] (env : Env J)

def Call.program : Call J → Op J Unit
  | .prepareInit store => Op.prepareInit env store
  | .acknowledgeInit store => Op.acknowledgeInit env store
  | .resetInitAfterReconciliation store => Op.resetInitAfterReconciliation env store
  | .saveProviderState state => Op.saveProviderState env state
  | .prepare batch store independent => Op.prepare env batch store independent
  | .markUnknown id => Op.markUnknown env id
  | .acknowledge id result store => Op.acknowledge env id result store
  | .acknowledgeRecovered id result store => Op.acknowledgeRecovered env id result store
  | .prepareAbort => Op.prepareAbort env
  | .acknowledgeAbort => Op.acknowledgeAbort env
  | .prepareFinish sequence store => Op.prepareFinish env sequence store
  | .acknowledgeFinish result store => Op.acknowledgeFinish env result store
  | .acknowledgeRecoveredFinish result store => Op.acknowledgeRecoveredFinish env result store
  | .sealExtraction sequence store => Op.sealExtraction env sequence store
  | .detach => Op.detach env
  | .commitCheckpoint point store complete => Op.commitCheckpoint env point store complete
  | .startSnapshot refreshAfterMs strategy => Op.startSnapshot env refreshAfterMs strategy
  | .appendSnapshot rows pageSequence => Op.appendSnapshot env rows pageSequence
  | .sealSnapshot counts => Op.sealSnapshot env counts
  | .openRun run project => Op.openLogicalRun env run project

def Cell.call (c : Cell J) (x : Call J × List Reply) : Cell J := (x.1.program env).final x.2 c

def Cell.calls (c : Cell J) (xs : List (Call J × List Reply)) : Cell J := xs.foldl (Cell.call env) c

end Jitsu.ReverseEtl
