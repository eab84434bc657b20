import Jitsu.ReverseEtl.LocalIndex

namespace Jitsu.ReverseEtl
open Checked Std

variable {J : Type}

structure Operation (J : Type) where
  batch : String
  record : Record J
  action : Action
  effects : List (Effect J)
  status : OperationStatus
  acceptedAt : Option ℕ
  deriving DecidableEq, Repr

namespace Operation

def id (op : Operation J) : String := op.record.operationId

def sequence (op : Operation J) : ℕ := op.record.sourceSequence

def Accepted (op : Operation J) : Prop := op.status = .outcome .accepted

instance (op : Operation J) : Decidable op.Accepted := inferInstanceAs (Decidable (_ = _))

def write (op : Operation J) (e : Effect J) : MemberRow J :=
  LocalIndex.memberRow e op.action op.sequence (op.acceptedAt.getD 0) false

end Operation

def operationStatus (status : BatchStatus) : Option Outcome → OperationStatus
  | some .staged => if status = .cancelled then .batch .cancelled else .outcome .staged
  | some outcome => .outcome outcome
  | none => .batch status

def operationOf (head : BatchHead J) (action : Action) (receipt : Option (ReceiptData J))
    (row : Record J × List (Effect J)) : Operation J where
  batch := head.id
  record := row.1
  action := action
  effects := row.2
  status := operationStatus head.status
    (receipt.bind fun r => outcomeOf r.result.outcomes row.1.operationId)
  acceptedAt := receipt.bind fun r => r.acceptedAt.lookup row.1.operationId

def operationsOf (head : BatchHead J) (data : BatchData J) (receipt : Option (ReceiptData J)) :
    List (Operation J) :=
  (data.batch.records.zip data.effects).map (operationOf head data.batch.action receipt)

def putOperation (operations : Table OperationRow) (id : String) (row : OperationRow) :
    Except Failure (Table OperationRow) :=
  match operations[id]? with
  | some old => .ok (operations.insert id { old with status := row.status })
  | none => do
    ensure (∀ o ∈ operations.toList, o.2.sequence ≠ row.sequence)
      (.database "UNIQUE constraint failed: operations.sequence")
    pure (operations.insert id row)

def indexEffect (op : Operation J) (l : LocalIndex J) (effect : Effect J) :
    Except Failure (LocalIndex J) := do
  let l := { l with touched := l.touched.insert effect.identityHash }
  if op.Accepted then
    require op.acceptedAt.isSome "Missing acceptance evidence"
    pure (l.apply effect op.action op.sequence (op.acceptedAt.getD 0) false)
  else pure l

def indexOperation (l : LocalIndex J) (op : Operation J) :
    Except Failure (LocalIndex J) := do
  let operations ← putOperation l.operations op.id ⟨op.sequence,op.status,op.batch⟩
  op.effects.foldlM (indexEffect op) { l with operations := operations }

def index (env : Env J) (head : BatchHead J) (data : BatchData J) (receipt : Option (ReceiptData J))
    (l : LocalIndex J) : Except Failure (LocalIndex J) := do
  let _ ← receipt.mapM fun r => validateBatchResult env data.batch r.result
  (operationsOf head data receipt).foldlM indexOperation l

def BatchHead.contents (env : Env J) (b : BatchHead J) : BatchData J where
  batch := b.data.value.batch
  effects := match b.data.value.effects with
    | some ref => ref.value
    | none => b.data.value.batch.records.map fun record => (env.asEffect record.row).toList

def BatchHead.receiptData (b : BatchHead J) : Option (ReceiptData J) := b.receipt.map ArtifactRef.value

def batchData (env : Env J) (mode : Mode) (b : BatchHead J) : Except Failure (BatchData J) := do
  require (b.data.value.effects.isSome ∨ mode = .mirror) "Missing projected effects"
  let data := b.contents env
  require (data.batch.batchId = b.id ∧ data.batch.records.length = b.size ∧
      data.effects.length = data.batch.records.length) "Invalid batch artifact binding"
  pure data

def replayBatch (env : Env J) (mode : Mode) (l : LocalIndex J) (b : BatchHead J) :
    Except Failure (LocalIndex J) := do
  let data ← batchData env mode b
  index env b data b.receiptData l

def SnapshotHead.native (s : SnapshotHead J) : Bool := s.strategy = .nativeReplace

def ArtifactHead.isNative (h : ArtifactHead J) : Bool := h.snapshot.any SnapshotHead.native

def ArtifactHead.isSealed (h : ArtifactHead J) : Bool := h.snapshot.any SnapshotHead.isSealed

def ArtifactHead.replaced (h : ArtifactHead J) : Bool :=
  h.snapshot.any fun s => s.native && s.replacementStatus = some .accepted

def ArtifactHead.parts (h : ArtifactHead J) : List (ArtifactRef (List (Effect J))) :=
  if h.isSealed then h.snapshot.elim [] SnapshotHead.parts else []

def restoreBaseline (refs : List (ArtifactRef (List (Member J)))) (l : LocalIndex J) : LocalIndex J :=
  refs.foldl (fun l ref => l.restoreMembers ref.value) l

def restore (env : Env J) (mode : Mode) (h : ArtifactHead J) : Except Failure (LocalIndex J) := do
  let l ← h.parts.foldlM (fun l ref => l.restoreDesired ref.value) (restoreBaseline h.baseline .create)
  let l ← (h.batches.insertionSort fun a b => a.first ≤ b.first).foldlM (replayBatch env mode) l
  pure (if h.replaced then l.applyReplacement else l)

def ArtifactHead.desired (h : ArtifactHead J) : List (Effect J) := h.parts.flatMap ArtifactRef.value

def BatchHead.operations (env : Env J) (b : BatchHead J) : List (Operation J) :=
  operationsOf b (b.contents env) b.receiptData

def ArtifactHead.operations (env : Env J) (h : ArtifactHead J) : List (Operation J) :=
  h.batches.flatMap (BatchHead.operations env)

def ArtifactHead.members (h : ArtifactHead J) : List (Member J) := h.baseline.flatMap ArtifactRef.value

def ArtifactHead.baselineEntry (h : ArtifactHead J) (i : String) : Option (MemberRow J) :=
  (h.members.find? (·.effect.identityHash = i)).map LocalIndex.baselineRow

def Operation.writes (op : Operation J) (es : List (Effect J)) (i : String) : Set (MemberRow J) :=
  {m | op.Accepted ∧ ∃ e ∈ es, e.identityHash = i ∧ m = op.write e}

def writes (ops : List (Operation J)) (i : String) : Set (MemberRow J) :=
  {m | ∃ op ∈ ops, m ∈ op.writes op.effects i}

def Latest (base : String → Option (MemberRow J)) (ops : List (Operation J)) (i : String)
    (o : Option (MemberRow J)) : Prop :=
  LastWriter.IsLatest MemberRow.sequence (base i) (writes ops i) o

variable {i : String}

@[simp] theorem writes_nil : writes ([] : List (Operation J)) i = ∅ := by
  ext m
  simp [writes]

variable {op : Operation J} {ops : List (Operation J)}

theorem writes_cons :
    writes (op :: ops) i = op.writes op.effects i ∪ writes ops i := by
  ext m
  simp [writes]

theorem operationStatus_accepted {status : BatchStatus} {outcome : Option Outcome} :
    operationStatus status outcome = .outcome .accepted ↔ outcome = some .accepted := by
  rcases outcome with _ | (_ | _ | _)
  · simp [operationStatus]
  · simp [operationStatus]
  · by_cases hs : status = .cancelled <;> simp [operationStatus,hs]
  · simp [operationStatus]

theorem operationOf_accepted {b : BatchHead J} {action : Action} {receipt : Option (ReceiptData J)}
    {row : Record J × List (Effect J)} : (operationOf b action receipt row).Accepted ↔
      ∃ r ∈ receipt, outcomeOf r.result.outcomes row.1.operationId = some .accepted := by
  rw [Operation.Accepted,operationOf,operationStatus_accepted,Option.bind_eq_some_iff]
  rfl

variable {e : Effect J} {es : List (Effect J)}

theorem Operation.writes_cons_pos
    (ha : op.Accepted) :
    op.writes (e :: es) e.identityHash = insert (op.write e) (op.writes es e.identityHash) := by
  ext m
  simp [writes,ha]

theorem Operation.writes_cons_neg
    (h : op.Accepted → e.identityHash ≠ i) : op.writes (e :: es) i = op.writes es i := by
  ext m
  simp +contextual [writes,h]

theorem indexEffect_eq_ok {l l' : LocalIndex J} :
    indexEffect op l e = .ok l' ↔ (op.Accepted → op.acceptedAt.isSome) ∧
      { l with
        touched := l.touched.insert e.identityHash
        members := if op.Accepted then LocalIndex.offerMember l.members e.identityHash (op.write e)
          else l.members } = l' := by
  by_cases ha : op.Accepted
  · simp [indexEffect,LocalIndex.apply,Operation.write,ha]
  · simp [indexEffect,ha]

theorem indexEffects_members {l l' : LocalIndex J}
    (h : es.foldlM (indexEffect op) l = .ok l') {base : Option (MemberRow J)}
    {W : Set (MemberRow J)} (hb : ∀ b ∈ base, b.sequence < op.sequence)
    (hl : LastWriter.IsLatest MemberRow.sequence base W l.members[i]?) :
    LastWriter.IsLatest MemberRow.sequence base (W ∪ op.writes es i) l'.members[i]? := by
  induction es generalizing l W with
  | nil =>
    cases h
    simpa [Operation.writes] using hl
  | cons e es ih =>
    rw [List.foldlM_cons,bind_eq_ok] at h
    obtain ⟨k,hk,h⟩ := h
    obtain ⟨_,rfl⟩ := indexEffect_eq_ok.mp hk
    by_cases ha : op.Accepted ∧ e.identityHash = i
    · obtain ⟨ha,rfl⟩ := ha
      have hoffer := LastWriter.isLatest_offer (v := op.write e) hl (by simpa [Operation.write] using hb)
      rw [Operation.writes_cons_pos ha,Set.union_insert,← Set.insert_union]
      exact ih h (by simpa [ha] using hoffer)
    · have hne : op.Accepted → e.identityHash ≠ i := fun hacc he => ha ⟨hacc,he⟩
      rw [Operation.writes_cons_neg hne]
      apply ih h
      by_cases hacc : op.Accepted
      · simpa [hacc,hne hacc] using hl
      · simpa [hacc] using hl

theorem indexEffects_frame {l l' : LocalIndex J}
    (h : es.foldlM (indexEffect op) l = .ok l') :
    l'.operations = l.operations ∧ l'.desired = l.desired ∧
      ∀ i, i ∈ l'.touched ↔ i ∈ l.touched ∨ ∃ e ∈ es, e.identityHash = i := by
  induction es generalizing l with
  | nil =>
    cases h
    simp
  | cons e es ih =>
    rw [List.foldlM_cons,bind_eq_ok] at h
    obtain ⟨k,hk,h⟩ := h
    obtain ⟨_,rfl⟩ := indexEffect_eq_ok.mp hk
    obtain ⟨ho,hd,ht⟩ := ih h
    refine ⟨ho,hd,fun i => ?_⟩
    rw [ht]
    simp only [ExtTreeSet.mem_insert,Std.compare_eq_iff_eq,List.mem_cons,exists_eq_or_imp]
    tauto

theorem indexEffects_total (ha : op.Accepted → op.acceptedAt.isSome)
    (es : List (Effect J)) (l : LocalIndex J) : ∃ l', es.foldlM (indexEffect op) l = .ok l' := by
  induction es generalizing l with
  | nil => exact ⟨l,rfl⟩
  | cons e es ih =>
    obtain ⟨l',h⟩ := ih _
    exact ⟨l',by rw [List.foldlM_cons,bind_eq_ok]; exact ⟨_,indexEffect_eq_ok.mpr ⟨ha,rfl⟩,h⟩⟩

def operationEntry (t : Table OperationRow) (id : String) : Option (ℕ × OperationStatus) :=
  (t[id]?).map fun o => (o.sequence,o.status)

def SequencesIn (pairs : Set (String × ℕ)) (t : Table OperationRow) : Prop :=
  ∀ id o, t[id]? = some o → (id,o.sequence) ∈ pairs

def OneIdPerSequence (pairs : Set (String × ℕ)) : Prop :=
  ∀ id id' n, (id,n) ∈ pairs → (id',n) ∈ pairs → id = id'

variable {t : Table OperationRow}

theorem putOperation_entry {t' : Table OperationRow} {id j : String} {row : OperationRow}
    (h : putOperation t id row = .ok t') : operationEntry t' j =
      if id = j then some (((t[id]?).elim row.sequence OperationRow.sequence),row.status)
      else operationEntry t j := by
  unfold putOperation at h
  unfold operationEntry
  rcases hold : t[id]? with _ | old
  · rw [hold] at h
    simp only [bind_eq_ok,pure_eq_ok] at h
    obtain ⟨_,_,rfl⟩ := h
    rw [ExtTreeMap.getElem?_insert]
    by_cases hj : id = j <;> simp [hj]
  · rw [hold] at h
    cases h
    rw [ExtTreeMap.getElem?_insert]
    by_cases hj : id = j <;> simp [hj]

variable {pairs : Set (String × ℕ)}

theorem SequencesIn.insert (ht : SequencesIn pairs t)
    {id : String} {row : OperationRow} (hp : (id,row.sequence) ∈ pairs) :
    SequencesIn pairs (t.insert id row) := by
  intro j o ho
  by_cases hj : id = j
  · subst hj
    rw [ExtTreeMap.getElem?_insert_self] at ho
    cases ho
    exact hp
  · rw [ExtTreeMap.getElem?_insert,if_neg (by simpa using hj)] at ho
    exact ht j o ho

theorem putOperation_total (hu : OneIdPerSequence pairs)
    (ht : SequencesIn pairs t) (id : String) (row : OperationRow)
    (hp : (id,row.sequence) ∈ pairs) :
    ∃ t', putOperation t id row = .ok t' ∧ SequencesIn pairs t' := by
  unfold putOperation
  rcases hold : t[id]? with _ | old
  · refine ⟨t.insert id row,?_,ht.insert hp⟩
    simp only [bind_eq_ok,ensure_eq_ok,pure_eq_ok,Prod.forall,
      ExtTreeMap.mem_toList_iff_getElem?_eq_some]
    refine ⟨(),?_,trivial⟩
    intro id' o ho hs
    have hid : id' = id := hu id' id row.sequence (hs ▸ ht id' o ho) hp
    rw [hid,hold] at ho
    cases ho
  · exact ⟨_,rfl,ht.insert (ht id old hold)⟩

structure Indexes (ops : List (Operation J)) (l l' : LocalIndex J) : Prop where
  members : ∀ {i : String} {base : Option (MemberRow J)} {W : Set (MemberRow J)},
    (∀ b ∈ base, ∀ op ∈ ops, b.sequence < op.sequence) →
    LastWriter.IsLatest MemberRow.sequence base W l.members[i]? →
    LastWriter.IsLatest MemberRow.sequence base (W ∪ writes ops i) l'.members[i]?
  touched : ∀ i, i ∈ l'.touched ↔ i ∈ l.touched ∨ ∃ op ∈ ops, ∃ e ∈ op.effects, e.identityHash = i
  desired : l'.desired = l.desired

theorem indexOperation_indexes {l l' : LocalIndex J}
    (h : indexOperation l op = .ok l') : Indexes [op] l l' := by
  simp only [indexOperation,bind_eq_ok] at h
  obtain ⟨t,_,h⟩ := h
  obtain ⟨_,hd,ht⟩ := indexEffects_frame h
  refine ⟨fun hb hl => ?_,by simpa using ht,hd⟩
  simpa [writes_cons] using indexEffects_members h (fun b hm => hb b hm op (by simp)) hl

theorem indexOperations_indexes {l l' : LocalIndex J}
    (h : ops.foldlM indexOperation l = .ok l') : Indexes ops l l' := by
  induction ops generalizing l with
  | nil =>
    cases h
    exact ⟨fun _ hl => by simpa using hl,by simp,rfl⟩
  | cons op ops ih =>
    rw [List.foldlM_cons,bind_eq_ok] at h
    obtain ⟨k,hk,h⟩ := h
    have h₁ := indexOperation_indexes hk
    have h₂ := ih h
    refine ⟨fun {i base W} hb hl => ?_,fun i => ?_,h₂.desired.trans h₁.desired⟩
    · have hm := h₂.members (fun b hm o ho => hb b hm o (List.mem_cons_of_mem _ ho))
        (h₁.members (fun b hm o ho => hb b hm o (by simp_all)) hl)
      rw [writes_cons,← Set.union_assoc]
      simpa [writes_cons] using hm
    · rw [h₂.touched,h₁.touched]
      simp [or_assoc]

structure Entries (ops : List (Operation J)) (t t' : Table OperationRow) : Prop where
  written : ∀ op ∈ ops, operationEntry t' op.id = some (op.sequence,op.status)
  kept : ∀ j, (∀ op ∈ ops, op.id ≠ j) → operationEntry t' j = operationEntry t j

theorem indexOperations_entries {l l' : LocalIndex J}
    (h : ops.foldlM indexOperation l = .ok l') (hn : (ops.map Operation.id).Nodup)
    (hs : ∀ op ∈ ops, ∀ n, (operationEntry l.operations op.id).map Prod.fst = some n → n = op.sequence) :
    Entries ops l.operations l'.operations := by
  induction ops generalizing l with
  | nil =>
    cases h
    exact ⟨by simp,fun _ _ => rfl⟩
  | cons op ops ih =>
    rw [List.foldlM_cons,bind_eq_ok] at h
    obtain ⟨k,hk,h⟩ := h
    simp only [indexOperation,bind_eq_ok] at hk
    obtain ⟨t,ht,hk⟩ := hk
    rw [List.map_cons,List.nodup_cons] at hn
    have hne : ∀ o ∈ ops, op.id ≠ o.id := fun o ho he => hn.1 (List.mem_map.mpr ⟨o,ho,he.symm⟩)
    have hput : ∀ j, operationEntry k.operations j = if op.id = j then some (op.sequence,op.status)
        else operationEntry l.operations j := by
      intro j
      rw [(indexEffects_frame hk).1,putOperation_entry ht]
      rcases ho : l.operations[op.id]? with _ | o
      · rfl
      · have := hs op (by simp) o.sequence (by simp [operationEntry,ho])
        simp [this]
    have hrest := ih h hn.2 (by
      intro o ho n he
      rw [hput,if_neg (hne o ho)] at he
      exact hs o (List.mem_cons_of_mem _ ho) n he)
    refine ⟨fun o ho => ?_,fun j hj => ?_⟩
    · rcases List.mem_cons.mp ho with rfl | ho
      · rw [hrest.kept _ (fun o' ho' => (hne o' ho').symm),hput,if_pos rfl]
      · exact hrest.written o ho
    · rw [hrest.kept j (fun o ho => hj o (List.mem_cons_of_mem _ ho)),hput,if_neg (hj op (by simp))]

theorem indexOperations_total (hu : OneIdPerSequence pairs)
    (hops : ∀ op ∈ ops, (op.id,op.sequence) ∈ pairs)
    (ha : ∀ op ∈ ops, op.Accepted → op.acceptedAt.isSome) {l : LocalIndex J}
    (hl : SequencesIn pairs l.operations) :
    ∃ l', ops.foldlM indexOperation l = .ok l' ∧ SequencesIn pairs l'.operations := by
  induction ops generalizing l with
  | nil => exact ⟨l,rfl,hl⟩
  | cons op ops ih =>
    obtain ⟨t,ht,hp⟩ := putOperation_total hu hl op.id
      ⟨op.sequence,op.status,op.batch⟩ (hops op (by simp))
    obtain ⟨k,hk⟩ := indexEffects_total (ha op (by simp)) op.effects { l with operations := t }
    have hkt : k.operations = t := (indexEffects_frame hk).1
    obtain ⟨l',h',hl'⟩ := ih (fun o ho => hops o (List.mem_cons_of_mem _ ho))
      (fun o ho => ha o (List.mem_cons_of_mem _ ho)) (l := k) (hkt ▸ hp)
    refine ⟨l',?_,hl'⟩
    rw [List.foldlM_cons,bind_eq_ok]
    refine ⟨k,?_,h'⟩
    rw [indexOperation,bind_eq_ok]
    exact ⟨t,ht,hk⟩

end Jitsu.ReverseEtl
