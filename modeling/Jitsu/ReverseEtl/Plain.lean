import Jitsu.Lib.Text
import Jitsu.ReverseEtl.Calls

namespace Jitsu.ReverseEtl

inductive Doc where
  | null
  | text (value : String)
  | member (email name : String)
  | envelope (identity upsert remove : Doc) (identityHash payloadHash : String)
  deriving DecidableEq, Repr

def objectBytes (fields : List (String × ℕ)) : ℕ :=
  arrayBytes (fields.map fun field => field.1.length + 3 + field.2)

def textBytes (text : String) : ℕ := text.length + 2

namespace Doc

def label : Doc → String
  | null => "null"
  | text value => value
  | member email name => email ++ "=" ++ name
  | envelope _ upsert _ _ _ => "<" ++ upsert.label ++ ">"

def asEffect : Doc → Option (Effect Doc)
  | envelope identity upsert remove identityHash payloadHash =>
    some ⟨⟨identity,upsert,remove⟩,identityHash,payloadHash⟩
  | _ => none

def ofEffect (e : Effect Doc) : Doc := envelope e.identity e.upsert e.remove e.identityHash e.payloadHash

def size : Doc → ℕ
  | null => 4
  | text value => textBytes value
  | member email name => objectBytes [("email",textBytes email),("name",textBytes name)]
  | envelope identity upsert remove identityHash payloadHash =>
    objectBytes [("identity",identity.size),("upsert",upsert.size),("remove",remove.size),
      ("identityHash",textBytes identityHash),("payloadHash",textBytes payloadHash)]

end Doc

def isDigest (text : String) : Bool :=
  text.length = 64 && text.toList.all fun c => c.isDigit || ('a' ≤ c && c ≤ 'f')

def framed (s : String) : List Char := List.replicate s.length 'a' ++ 'b' :: s.toList

def frames (ids : List String) : List Char := ids.flatMap framed

theorem replicate_cons_inj {m n : ℕ} {xs ys : List Char}
    (h : List.replicate m 'a' ++ 'b' :: xs = List.replicate n 'a' ++ 'b' :: ys) : m = n ∧ xs = ys := by
  induction m generalizing n with
  | zero =>
    cases n with
    | zero => simpa using h
    | succ n => simp [List.replicate_succ] at h
  | succ m ih =>
    cases n with
    | zero => simp [List.replicate_succ] at h
    | succ n =>
      simp only [List.replicate_succ,List.cons_append,List.cons.injEq,true_and] at h
      obtain ⟨rfl,hxs⟩ := ih h
      exact ⟨rfl,hxs⟩

theorem frames_injective : Function.Injective frames := by
  intro ids
  induction ids with
  | nil =>
    intro ids' h
    cases ids' with
    | nil => rfl
    | cons id ids' => simp [frames,framed] at h
  | cons id ids ih =>
    intro ids' h
    cases ids' with
    | nil => simp [frames,framed] at h
    | cons id' ids' =>
      simp only [frames,List.flatMap_cons,framed,List.append_assoc,List.cons_append] at h
      obtain ⟨hlen,h⟩ := replicate_cons_inj h
      obtain ⟨hid,h⟩ := List.append_inj h (by simpa only [String.length_toList] using hlen)
      rw [String.toList_inj.mp hid,ih h]

def recordBytes (r : Record Doc) : ℕ :=
  objectBytes [("key",66),("sourceSequence",(Nat.log 10 r.sourceSequence) + 1),("row",r.row.size),
    ("operationId",textBytes r.operationId)]

def batchBytes (batch : PreparedBatch Doc) : ℕ :=
  objectBytes [("batchId",textBytes batch.batchId),("action",8),
    ("records",arrayBytes (batch.records.map recordBytes)),("payloadHash",textBytes batch.payloadHash)]

def effectsBytes (es : List (Effect Doc)) : ℕ := arrayBytes (es.map fun e => (Doc.ofEffect e).size)

def receiptSize (r : ReceiptData Doc) : ℕ :=
  objectBytes [("outcomes",arrayBytes (r.result.outcomes.map fun o =>
      objectBytes [("operationId",textBytes o.operationId),("status",10)])),
    ("acceptedAt",objectBytes (r.acceptedAt.map fun entry => (entry.1,26)))]

def idSchema (id : String) : Bool := 0 < id.length && id.length ≤ 512

def outcomeSchema : Outcome → Bool
  | .rejected code safeReason => 0 < code.length && code.length ≤ 128 && safeReason.length ≤ 1024
  | _ => true

def metadataSchema (remoteJobIds : Option (List String)) (providerCheckpoint : Option Doc) : Bool :=
  remoteJobIds.all (fun ids => ids.length ≤ 100 && ids.all idSchema) &&
    providerCheckpoint.all fun value => value.size ≤ 65536

def plainEnv (limits : Limits) : Env Doc where
  limits := limits
  contentHash := fun value => "#" ++ value.label
  stringHash := fun text => "#" ++ text
  rowsHash := fun rows => String.ofList (frames (rows.map Doc.label))
  pageHash := fun rows => String.ofList (frames (rows.flatMap fun row => row.2.map Effect.payloadHash))
  batchHash := fun _ _ ids => String.ofList (frames ids)
  operationHash := fun _ action key content =>
    (if action = .upsert then "+" else "-") ++ String.ofList (key.toList.drop 63) ++ content
  isHash := isDigest
  isNull := fun value => value = .null
  asEffect := Doc.asEffect
  jsonBytes := Doc.size
  effectBytes := fun e => (Doc.ofEffect e).size
  manifestBytes := batchBytes
  storedBytes := fun stored => objectBytes [("batch",batchBytes stored.batch),("effects",4)]
  receiptBytes := receiptSize
  memberBytes := fun m => objectBytes [("effect",(Doc.ofEffect m.effect).size),("acceptedAt",26),
    ("uncertain",if m.uncertain then 4 else 5)]
  rowBytes := fun row => arrayBytes [textBytes row.1,effectsBytes row.2]
  savedBytes := fun s => objectBytes [("point",objectBytes [("sourceSequence",16)]),("store",s.store.size)]
  finishBytes := fun r => objectBytes [("result",10),("recordedAt",26),
    ("remoteJobIds",arrayBytes ((r.result.remoteJobIds.getD []).map textBytes))]
  cursorBytes := fun cursor => arrayBytes ((cursor.value :: cursor.primaryKeyValues).map textBytes)
  resultSchema := fun r => r.outcomes.length ≤ 10000 &&
    (r.outcomes.all fun o => idSchema o.operationId && outcomeSchema o.status) &&
    metadataSchema r.remoteJobIds r.providerCheckpoint
  finishSchema := fun r => metadataSchema r.remoteJobIds r.providerCheckpoint
  contentHash_ne_empty := by
    intro value h
    have hlen := congrArg String.length h
    simp at hlen
  batchHash_injective := by
    intro _ _ _ ids ids' h
    exact frames_injective (String.ofList_injective h)

def plainRun (mode : Mode) (id : String) : RunInput where
  workspaceId := "w"
  syncId := "s"
  taskId := "t"
  logicalRunId := id
  configRevision := "c"
  targetIdentity := "a"
  mode := mode
  extraction := if mode = .mirror then .full else .cursor
  insertOnly := false

def plainProject : Project Doc
  | _, .member email name => .ok [⟨.text email,.member email name,.text email⟩]
  | _, .envelope identity upsert remove _ _ => .ok [⟨identity,upsert,remove⟩]
  | _, _ => .error (.foreign "Unsupported row")

def plainEffect (email name : String) : Effect Doc :=
  .ofIdentity (plainEnv defaultLimits) ⟨.text email,.member email name,.text email⟩

def plainKey (n : ℕ) : String :=
  String.ofList (List.replicate 63 'a' ++ [Lib.hexDigit (n % 16)])

def plainRecord (run : RunInput) (action : Action) (n : ℕ) (row : Doc) : Record Doc :=
  let env := plainEnv defaultLimits
  ⟨plainKey n,n,row,env.operationHash run action (plainKey n) (env.contentHash row)⟩

def plainBatch (run : RunInput) (action : Action) (first : ℕ) (rows : List Doc) : PreparedBatch Doc :=
  let records := (List.range rows.length).zipWith (fun i row => plainRecord run action (first + i) row) rows
  { batchId := String.ofList (frames (records.map Record.operationId))
    action := action
    records := records
    payloadHash := (plainEnv defaultLimits).rowsHash rows
    cursor := none }

def plainResult (batch : PreparedBatch Doc) (outcomes : List Outcome) : BatchResult Doc :=
  ⟨List.zipWith (fun r o => ⟨r.operationId,o⟩) batch.records outcomes,none,none⟩

def plainReplies : List Reply := List.replicate 8 ⟨.ok,false,7⟩

def plainCall (call : Call Doc) : Call Doc × List Reply := (call,plainReplies)

def plainAck (batch : PreparedBatch Doc) (outcomes : List Outcome) : Call Doc × List Reply :=
  plainCall (.acknowledge batch.batchId (plainResult batch outcomes) (.text "acknowledged"))

def plainOpen (run : RunInput) : List (Call Doc × List Reply) :=
  [plainCall (.openRun run plainProject),plainCall (.prepareInit (.text "init")),
    plainCall (.acknowledgeInit (.text "ready"))]

def plainFinish (sequence : ℕ) : List (Call Doc × List Reply) :=
  [plainCall (.prepareFinish sequence (.text "finish")),
    plainCall (.acknowledgeFinish ⟨.accepted,none,none⟩ (.text "finished")),
    plainCall (.commitCheckpoint ⟨sequence,none⟩ (.text "done") true)]

def plainPrepare (batch : PreparedBatch Doc) : Call Doc × List Reply :=
  plainCall (.prepare batch (.text "prepared") false)

def firstRun : RunInput := plainRun .upsert "1"

def firstBatch : PreparedBatch Doc := plainBatch firstRun .upsert 1 [.member "a" "x",.member "b" "y"]

def firstCalls : List (Call Doc × List Reply) :=
  plainOpen firstRun ++ [plainPrepare firstBatch,plainAck firstBatch [.accepted,.accepted]] ++ plainFinish 2

def secondRun : RunInput := plainRun .upsert "2"

def secondBatch : PreparedBatch Doc := plainBatch secondRun .upsert 1 [.member "a" "u",.member "c" "z"]

def laterBatch : PreparedBatch Doc := plainBatch secondRun .upsert 3 [.member "a" "v"]

def removalBatch : PreparedBatch Doc := plainBatch secondRun .remove 4 [.member "b" "y"]

def secondCalls : List (Call Doc × List Reply) :=
  [plainCall (.prepareInit (.text "init")),plainCall (.acknowledgeInit (.text "ready")),
    plainPrepare secondBatch,plainAck secondBatch [.staged,.accepted],
    plainPrepare laterBatch,plainAck laterBatch [.accepted],
    plainPrepare removalBatch,plainAck removalBatch [.accepted]]

def emptyDb : Db Doc := ⟨[],[],fun _ => none⟩

def plainCell (xs : List (Call Doc × List Reply)) : Cell Doc :=
  (emptyDb.boot firstRun plainProject).calls (plainEnv defaultLimits) xs

def openedCell : Cell Doc := plainCell (firstCalls ++ [plainCall (.openRun secondRun plainProject)])

def stagedCell : Cell Doc := openedCell.calls (plainEnv defaultLimits) secondCalls

def lateReceipt : List (Call Doc × List Reply) := [plainAck secondBatch [.accepted,.accepted]]

def mirrorRows (members : List (String × String)) : List (String × List (Identity Doc)) :=
  (List.range members.length).zipWith
    (fun i m => (plainKey i,[⟨.text m.1,.member m.1 m.2,.text m.1⟩])) members

def mirrorBatch (run : RunInput) (action : Action) (first : ℕ) (members : List (String × String)) :
    PreparedBatch Doc :=
  plainBatch run action first (members.map fun m => .ofEffect (plainEffect m.1 m.2))

def mirrorOpen (run : RunInput) (members : List (String × String)) : List (Call Doc × List Reply) :=
  plainOpen run ++ [plainCall (.startSnapshot none .snapshotDiff),
    plainCall (.appendSnapshot (mirrorRows members) 1),plainCall (.sealSnapshot none)]

def firstMirror : RunInput := plainRun .mirror "1"

def secondMirror : RunInput := plainRun .mirror "2"

def mirrorCalls : List (Call Doc × List Reply) :=
  let added := mirrorBatch firstMirror .upsert 1 [("a","x"),("b","y")]
  let changed := mirrorBatch secondMirror .upsert 1 [("a","u"),("c","z")]
  let removed := mirrorBatch secondMirror .remove 3 [("b","y")]
  mirrorOpen firstMirror [("a","x"),("b","y")] ++
    [plainPrepare added,plainAck added [.accepted,.accepted]] ++ plainFinish 2 ++
    mirrorOpen secondMirror [("a","u"),("c","z")] ++
    [plainPrepare changed,plainAck changed [.accepted,.accepted],plainPrepare removed,
      plainAck removed [.accepted]] ++ plainFinish 3

end Jitsu.ReverseEtl
