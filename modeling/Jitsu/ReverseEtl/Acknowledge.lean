import Jitsu.ReverseEtl.Prepare

namespace Jitsu.ReverseEtl
open Checked Std

variable {J : Type} {env : Env J} {s : Session J} {c : ControlRow J} {id : String} {input : BatchResult J}
  {store : J} {reconciled : Bool} {finishAt : Option ℕ} {now : ℕ} {d : Draft J} {old : BatchHead J}

structure Acknowledged (env : Env J) (id : String) (input : BatchResult J) (reconciled : Bool)
    (finishAt : Option ℕ) (s : Session J) (c : ControlRow J) (old : BatchHead J) : Prop where
  phase : c.phase = .running ∨ c.phase = .batchesPending ∨ c.phase = .finishResolving
  mem : old ∈ s.head.batches
  id : old.id = id
  shape : env.resultSchema input = true
  answers : Answers (old.contents env).batch input
  terminal : ∀ p ∈ old.receiptData, terminalKept p.result input
  advancing : ∀ p ∈ old.receiptData, advances p.result input = true

def ackReceipt (old : BatchHead J) (input : BatchResult J) (time : ℕ) : ReceiptData J :=
  mergeReceipt time old.receiptData input

def ackHead (env : Env J) (old : BatchHead J) (input : BatchResult J) (time : ℕ) : BatchHead J :=
  acknowledgedHead env old (old.contents env) (ackReceipt old input time)

def ackDraft (env : Env J) (old : BatchHead J) (input : BatchResult J) (store : J) (time : ℕ) : Draft J where
  edit := .replace old.id (ackHead env old input time)
  changes := { store := some store }
  after := index env (ackHead env old input time) (old.contents env) (some (ackReceipt old input time))

variable {b : BatchHead J}

theorem find_ok (h : find s id = .ok b) : b ∈ s.head.batches ∧ b.id = id := by
  unfold find at h
  rcases hf : s.head.batches.find? (·.id = id) with _ | b'
  · rw [hf] at h
    simp at h
  · rw [hf] at h
    cases h
    exact ⟨List.mem_of_find?_eq_some hf,by simpa using List.find?_some hf⟩

variable {mode : Mode}

theorem batchData_eq {data : BatchData J}
    (h : batchData env mode b = .ok data) : data = b.contents env := by
  simp only [batchData,bind_eq_ok,pure_eq_ok] at h
  obtain ⟨_,_,_,_,rfl⟩ := h
  rfl

theorem ack_ok [DecidableEq J]
    (h : ack env id input store reconciled finishAt now s c = .ok (some d)) :
    ∃ old, Acknowledged env id input reconciled finishAt s c old ∧
      d = ackDraft env old input store (finishAt.getD now) := by
  simp only [ack,bind_eq_ok,require_eq_ok] at h
  obtain ⟨_,hphase,old,hold,data,hdata,result,hres,_,hterm,h⟩ := h
  obtain ⟨rfl,hshape,hans⟩ := validateBatchResult_eq_ok.mp hres
  obtain ⟨hmem,rfl⟩ := find_ok hold
  obtain rfl := batchData_eq hdata
  split at h
  · simp at h
  · rename_i hadv
    simp only [bind_eq_ok,require_eq_ok,pure_eq_ok,encodeJson,Option.some.injEq] at h
    obtain ⟨_,_,_,_,_,_,_,⟨_,_,rfl⟩,rfl⟩ := h
    refine ⟨old,⟨?_,hmem,rfl,hshape,hans,hterm,?_⟩,rfl⟩
    · rcases hphase with hp | ⟨_,hp⟩ | ⟨_,hp⟩ <;> simp [hp]
    · intro p hp
      simpa [Option.mem_def.mp hp] using hadv

variable {acc : List (String × ℕ)}

theorem recordAcceptance_lookup {row : RecordOutcome} {t : ℕ} {j : String}
    (h : acc.lookup j = some t) : (recordAcceptance now acc row).lookup j = some t := by
  unfold recordAcceptance
  split
  · rw [List.lookup_append,h]
    rfl
  · exact h

theorem mergeAcceptance_lookup {rows : List RecordOutcome} {t : ℕ} {j : String}
    (h : acc.lookup j = some t) : (rows.foldl (recordAcceptance now) acc).lookup j = some t := by
  induction rows generalizing acc with
  | nil => exact h
  | cons row rows ih => exact ih (recordAcceptance_lookup h)

theorem mergeAcceptance_dated {rows : List RecordOutcome} {row : RecordOutcome}
    (hrow : row ∈ rows) (ha : row.status = .accepted) :
    ((rows.foldl (recordAcceptance now) acc).lookup row.operationId).isSome := by
  induction rows generalizing acc with
  | nil => simp at hrow
  | cons r rows ih =>
    rcases List.mem_cons.mp hrow with rfl | hrow
    · obtain ⟨t,ht⟩ : ∃ t, (recordAcceptance now acc row).lookup row.operationId = some t := by
        rcases hl : acc.lookup row.operationId with _ | t
        · refine ⟨now,?_⟩
          simp [recordAcceptance,ha,hl,List.lookup_append]
        · exact ⟨t,recordAcceptance_lookup hl⟩
      rw [List.foldl_cons,mergeAcceptance_lookup ht]
      rfl
    · exact ih hrow

theorem ackHead_contents {time : ℕ} : (ackHead env old input time).contents env = old.contents env := rfl

theorem ackHead_receiptData {time : ℕ} :
    (ackHead env old input time).receiptData = some (ackReceipt old input time) := rfl

variable {runId : String}

theorem BatchInv.records_length
    (hb : BatchInv env mode runId b) : (b.contents env).batch.records.length = b.size := by
  simpa using congrArg List.length hb.sequences

theorem ackHead_batchInv (time : ℕ) (hb : BatchInv env mode runId old)
    (hk : Acknowledged env id input reconciled finishAt s c old) :
    BatchInv env mode runId (ackHead env old input time) := { hb with
  receipt := by
    intro r hr
    rw [ackHead_receiptData,Option.mem_def,Option.some.injEq] at hr
    subst hr
    exact ⟨hk.shape,hk.answers,fun row hrow ha => mergeAcceptance_dated hrow ha⟩
  settled := .acknowledged (ackReceipt old input time) rfl rfl rfl rfl rfl
  submitted := by
    have hsub := hb.submitted
    have hlen : input.outcomes.length = old.size := hk.answers.length.trans hb.records_length
    have hcount : input.count (!·.isRejected) ≤ input.outcomes.length := List.countP_le_length
    simp only [ackHead,acknowledgedHead,BatchHead.submitted,Option.getD_some] at hsub ⊢
    apply max_le hsub
    split
    · exact hcount.trans hlen.le
    · exact hlen.le }

theorem eq_of_batch_id {base next : ℕ} {h : ArtifactHead J}
    (hi : HeadInv env mode base next h) {a : BatchHead J} (ha : a ∈ h.batches) (hb : b ∈ h.batches)
    (he : a.id = b.id) : a = b := List.inj_on_of_nodup_map hi.batchIds ha hb he

theorem replace_headInv {base next : ℕ} (time : ℕ)
    (hi : HeadInv env mode base next s.head) (hk : Acknowledged env id input reconciled finishAt s c old) :
    HeadInv env mode base next ((HeadEdit.replace old.id (ackHead env old input time)).apply s.head) := by
  apply hi.map
  · intro b hb
    split
    · exact ackHead_batchInv time (hi.batches old hk.mem) hk
    · exact hi.batches b hb
  · intro b hb
    split
    · rw [eq_of_batch_id hi hb hk.mem ‹_›]
      exact ⟨rfl,rfl,rfl,rfl⟩
    · exact ⟨rfl,rfl,rfl,rfl⟩
  · intro b hb hs
    split
    · rfl
    · exact hs

variable {op : Operation J}

theorem ack_kept (time : ℕ)
    (hb : BatchInv env mode runId old) (hk : Acknowledged env id input reconciled finishAt s c old)
    (hop : op ∈ old.operations env) : ∃ op' ∈ (ackHead env old input time).operations env,
      op'.id = op.id ∧ op'.sequence = op.sequence ∧ op'.effects = op.effects ∧
      (op.Accepted → op'.Accepted ∧ ∀ e, op'.write e = op.write e) := by
  obtain ⟨row,hrow,rfl⟩ := List.mem_map.mp hop
  refine ⟨_,List.mem_map_of_mem hrow,rfl,rfl,rfl,fun ha => ?_⟩
  obtain ⟨p,hp,ho⟩ := operationOf_accepted.mp ha
  have hkept := hk.terminal p hp _ (mem_of_outcomeOf ho) (by simp)
  refine ⟨operationOf_accepted.mpr ⟨_,rfl,hkept⟩,fun e => ?_⟩
  obtain ⟨t,ht⟩ := Option.isSome_iff_exists.mp ((hb.receipt p hp).dated _ (mem_of_outcomeOf ho) rfl)
  have hnew : (ackReceipt old input time).acceptedAt.lookup row.1.operationId = some t := by
    apply mergeAcceptance_lookup
    rwa [Option.mem_def.mp hp]
  simp [Operation.write,operationOf,Option.mem_def.mp hp,ht,ackHead_receiptData,hnew,Operation.sequence,
    ackHead_contents]

theorem batch_of_operation (hop : op ∈ b.operations env) :
    op.batch = b.id := by
  obtain ⟨row,_,rfl⟩ := List.mem_map.mp hop
  rfl

theorem mem_replace_operations (hm : old ∈ s.head.batches) :
    op ∈ ((HeadEdit.replace old.id b).apply s.head).operations env ↔ op ∈ b.operations env ∨
      ∃ a ∈ s.head.batches, a.id ≠ old.id ∧ op ∈ a.operations env := by
  simp only [HeadEdit.apply,ArtifactHead.operations,List.mem_flatMap,List.mem_map]
  constructor
  · rintro ⟨_,⟨a,ha,rfl⟩,hop⟩
    by_cases he : a.id = old.id
    · exact .inl (by simpa [he] using hop)
    · exact .inr ⟨a,ha,he,by simpa [he] using hop⟩
  · rintro (hop | ⟨a,ha,he,hop⟩)
    · exact ⟨b,⟨old,hm,by simp⟩,hop⟩
    · exact ⟨a,⟨a,ha,by simp [he]⟩,hop⟩

theorem replace_extends {base next : ℕ} (time : ℕ) (hi : HeadInv env mode base next s.head)
    (hk : Acknowledged env id input reconciled finishAt s c old) :
    Extends env s.head ((HeadEdit.replace old.id (ackHead env old input time)).apply s.head)
      (ackHead env old input time) where
  baseline := rfl
  snapshot := rfl
  mem := List.mem_map.mpr ⟨old,hk.mem,by simp⟩
  operations := by
    intro op
    have hi' := replace_headInv time hi hk
    rw [mem_replace_operations hk.mem]
    constructor
    · rintro (hop | ⟨b,hb,hne,hop⟩)
      · exact .inl hop
      · refine .inr ⟨List.mem_flatMap.mpr ⟨b,hb,hop⟩,fun o ho he => hne ?_⟩
        have hsame : o = op := eq_of_operation_id hi'.ids
          ((mem_replace_operations hk.mem).mpr (.inl ho))
          ((mem_replace_operations hk.mem).mpr (.inr ⟨b,hb,hne,hop⟩)) he
        rw [← batch_of_operation hop,← hsame,batch_of_operation ho]
        rfl
    · rintro (hop | ⟨hop,hno⟩)
      · exact .inl hop
      · obtain ⟨b,hb,hop⟩ := List.mem_flatMap.mp hop
        refine .inr ⟨b,hb,fun he => ?_,hop⟩
        rw [eq_of_batch_id hi hb hk.mem he] at hop
        obtain ⟨op',hop',hid,_⟩ := ack_kept time (hi.batches old hk.mem) hk hop
        exact hno op' hop' hid
  kept := by
    intro op hop
    obtain ⟨b,hb,hop⟩ := List.mem_flatMap.mp hop
    by_cases he : b.id = old.id
    · rw [eq_of_batch_id hi hb hk.mem he] at hop
      obtain ⟨op',hop',h⟩ := ack_kept time (hi.batches old hk.mem) hk hop
      exact ⟨op',(mem_replace_operations hk.mem).mpr (.inl hop'),h⟩
    · exact ⟨op,(mem_replace_operations hk.mem).mpr (.inr ⟨b,hb,he,hop⟩),rfl,rfl,rfl,
        fun ha => ⟨ha,fun _ => rfl⟩⟩

theorem ack_indexed {base next : ℕ} (store : J) (time : ℕ)
    (hi : HeadInv env mode base next s.head) (hl : Indexed env s.head s.localIndex)
    (hk : Acknowledged env id input reconciled finishAt s c old)
    (hr : s.head.replaced = false) : ∃ l, (ackDraft env old input store time).after s.localIndex = .ok l ∧
      Indexed env ((ackDraft env old input store time).edit.apply s.head) l := by
  obtain ⟨l,hops,hidx⟩ := hl.extend (replace_headInv time hi hk) (replace_extends time hi hk) hr
  refine ⟨l,?_,hidx⟩
  have heq := index_eq (ackHead_batchInv time (hi.batches old hk.mem) hk) s.localIndex
  exact heq.trans hops

end Jitsu.ReverseEtl
