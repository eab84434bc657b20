import Jitsu.ReverseEtl.Replay

namespace Jitsu.ReverseEtl
open Checked Std

variable {J : Type}

def Outcome.isRejected : Outcome → Bool
  | .rejected _ _ => true
  | _ => false

def BatchResult.count (r : BatchResult J) (p : Outcome → Bool) : ℕ := r.outcomes.countP fun o => p o.status

structure ReceiptInv (env : Env J) (batch : PreparedBatch J) (r : ReceiptData J) : Prop where
  shape : env.resultSchema r.result = true
  answers : Answers batch r.result
  dated : ∀ row ∈ r.result.outcomes, row.status = .accepted → (r.acceptedAt.lookup row.operationId).isSome

inductive Settled (b : BatchHead J) : Prop where
  | outstanding (status : b.status.outstanding = true) (receipt : b.receipt = none)
      (accepted : b.accepted = 0) (staged : b.staged = 0) (rejected : b.rejected = 0)
      (submitted : b.submittedRecords = none)
  | acknowledged (r : ReceiptData J) (status : b.status = .acknowledged) (receipt : b.receiptData = some r)
      (accepted : b.accepted = r.result.count (· = .accepted))
      (staged : b.staged = r.result.count (· = .staged))
      (rejected : b.rejected = r.result.count Outcome.isRejected)
  | cancelled (r : ReceiptData J) (status : b.status = .cancelled) (receipt : b.receiptData = some r)
      (accepted : b.accepted = r.result.count (· = .accepted))
      (staged : b.staged = 0)
      (rejected : b.rejected = r.result.count Outcome.isRejected)

structure BatchInv (env : Env J) (mode : Mode) (runId : String) (b : BatchHead J) : Prop where
  stored : b.data.value.effects.isSome ∨ mode = .mirror
  named : (b.contents env).batch.batchId = b.id
  action : (b.contents env).batch.action = b.action
  hash : b.id = env.batchHash runId b.action (b.contents env).batch.operationIds
  positive : 0 < b.first
  nonempty : b.first ≤ b.last
  sequences : (b.contents env).batch.records.map Record.sourceSequence = List.range' b.first b.size
  operations : (b.contents env).batch.operationIds.Nodup
  projected : (b.contents env).effects.length = (b.contents env).batch.records.length
  distinct : ∀ es ∈ (b.contents env).effects, (es.map Effect.identityHash).Nodup
  hashed : ∀ es ∈ (b.contents env).effects, ∀ e ∈ es, e.identityHash ≠ ""
  receipt : ∀ r ∈ b.receiptData, ReceiptInv env (b.contents env).batch r
  settled : Settled b
  submitted : b.submitted ≤ b.size

def Tiles : ℕ → List (BatchHead J) → ℕ → Prop
  | base, [], next => base = next
  | base, b :: bs, next => b.first = base + 1 ∧ b.first ≤ b.last ∧ Tiles b.last bs next

structure HeadInv (env : Env J) (mode : Mode) (base next : ℕ) (h : ArtifactHead J) : Prop where
  tiles : Tiles base h.batches next
  batches : ∀ b ∈ h.batches, BatchInv env mode h.runId b
  ids : ((h.operations env).map Operation.id).Nodup
  batchIds : (h.batches.map BatchHead.id).Nodup
  settled : ∀ b ∈ h.batches.dropLast, b.status.outstanding = false
  baseline : ∀ m ∈ h.members, m.effect.identityHash ≠ ""
  distinct : (h.desired.map Effect.identityHash).Nodup
  hashed : ∀ e ∈ h.desired, e.identityHash ≠ ""
  replaced : h.replaced = true → h.isSealed = true

namespace Tiles

variable {base mid next : ℕ} {bs cs : List (BatchHead J)} {b : BatchHead J}

theorem append : Tiles base (bs ++ cs) next ↔ ∃ mid, Tiles base bs mid ∧ Tiles mid cs next := by
  induction bs generalizing base with
  | nil => simp [Tiles]
  | cons b bs ih =>
    simp only [List.cons_append,Tiles,ih]
    constructor
    · rintro ⟨h₁,h₂,mid,h₃,h₄⟩
      exact ⟨mid,⟨h₁,h₂,h₃⟩,h₄⟩
    · rintro ⟨mid,⟨h₁,h₂,h₃⟩,h₄⟩
      exact ⟨h₁,h₂,mid,h₃,h₄⟩

theorem le (h : Tiles base bs next) : base ≤ next := by
  induction bs generalizing base with
  | nil => exact h.le
  | cons b bs ih =>
    obtain ⟨h₁,h₂,h₃⟩ := h
    have := ih h₃
    omega

theorem bounds (h : Tiles base bs next) (hb : b ∈ bs) : base < b.first ∧ b.first ≤ b.last ∧ b.last ≤ next := by
  induction bs generalizing base with
  | nil => simp at hb
  | cons c cs ih =>
    obtain ⟨h₁,h₂,h₃⟩ := h
    rcases List.mem_cons.mp hb with rfl | hb
    · have := h₃.le
      omega
    · have := ih h₃ hb
      omega

theorem map {f : BatchHead J → BatchHead J} (hf : ∀ b ∈ bs, (f b).first = b.first ∧ (f b).last = b.last)
    (h : Tiles base bs next) : Tiles base (bs.map f) next := by
  induction bs generalizing base with
  | nil => exact h
  | cons b bs ih =>
    obtain ⟨h₁,h₂,h₃⟩ := h
    obtain ⟨hf₁,hf₂⟩ := hf b (by simp)
    refine ⟨hf₁.trans h₁,by omega,?_⟩
    rw [hf₂]
    exact ih (fun c hc => hf c (List.mem_cons_of_mem _ hc)) h₃

theorem sorted (h : Tiles base bs next) : bs.Pairwise fun a b => a.first ≤ b.first := by
  induction bs generalizing base with
  | nil => exact .nil
  | cons b bs ih =>
    obtain ⟨_,h₂,h₃⟩ := h
    refine List.pairwise_cons.mpr ⟨?_,ih h₃⟩
    intro c hc
    have := h₃.bounds hc
    omega

theorem range (h : Tiles base bs next) :
    bs.flatMap (fun b => List.range' b.first b.size) = List.range' (base + 1) (next - base) := by
  induction bs generalizing base with
  | nil =>
    rw [show base = next from h]
    simp
  | cons b bs ih =>
    obtain ⟨h₁,h₂,h₃⟩ := h
    have hle := h₃.le
    rw [List.flatMap_cons,ih h₃,h₁,BatchHead.size]
    have hsplit := List.range'_append_1 (s := base + 1) (m := b.last - b.first + 1) (n := next - b.last)
    rw [show base + 1 + (b.last - b.first + 1) = b.last + 1 by omega,
      show b.last - b.first + 1 + (next - b.last) = next - base by omega] at hsplit
    rw [← hsplit,← h₁]

end Tiles

variable {b : BatchHead J}

theorem operationsOf_map {α : Type} {data : BatchData J}
    {receipt : Option (ReceiptData J)} (hl : data.effects.length = data.batch.records.length)
    (f : Record J → α) :
    (operationsOf b data receipt).map (fun op => f op.record) = data.batch.records.map f := by
  rw [operationsOf,List.map_map]
  have hzip : (data.batch.records.zip data.effects).map Prod.fst = data.batch.records :=
    List.map_fst_zip hl.ge
  nth_rewrite 2 [← hzip]
  rw [List.map_map]
  rfl

variable {env : Env J} {mode : Mode} {runId : String}

section

variable (hb : BatchInv env mode runId b)

include hb

theorem BatchInv.map_id
    :
    (b.operations env).map Operation.id = (b.contents env).batch.operationIds :=
  operationsOf_map hb.projected Record.operationId

theorem BatchInv.operation_ids
    : ((b.operations env).map Operation.id).Nodup := by
  rw [hb.map_id]
  exact hb.operations

theorem BatchInv.exists_id
    : ∃ id, id ∈ (b.contents env).batch.operationIds := by
  have hlen : (b.contents env).batch.operationIds.length = b.size := by
    simpa [PreparedBatch.operationIds] using congrArg List.length hb.sequences
  apply List.exists_mem_of_ne_nil
  intro hnil
  rw [hnil] at hlen
  simp [BatchHead.size] at hlen

end

namespace HeadInv

variable {env : Env J} {mode : Mode} {base next : ℕ} {h : ArtifactHead J} (hi : HeadInv env mode base next h)

include hi

theorem sequences :
    (h.operations env).map Operation.sequence = List.range' (base + 1) (next - base) := by
  rw [← hi.tiles.range,ArtifactHead.operations,List.map_flatMap]
  apply List.flatMap_congr
  intro b hb
  have hbatch := hi.batches b hb
  rw [← hbatch.sequences]
  exact operationsOf_map hbatch.projected Record.sourceSequence

theorem sequence_bounds {op : Operation J}
    (hop : op ∈ h.operations env) : base < op.sequence ∧ op.sequence ≤ next := by
  have hm : op.sequence ∈ (h.operations env).map Operation.sequence := List.mem_map_of_mem hop
  rw [hi.sequences,List.mem_range'_1] at hm
  have := hi.tiles.le
  omega

theorem operation_unique {op op' : Operation J}
    (hop : op ∈ h.operations env) (hop' : op' ∈ h.operations env) (he : op.sequence = op'.sequence) :
    op = op' := by
  have hn : ((h.operations env).map Operation.sequence).Nodup := by
    rw [hi.sequences]
    exact List.nodup_range'
  exact List.inj_on_of_nodup_map hn hop hop' he

theorem append {b : BatchHead J} (hb : BatchInv env mode h.runId b)
    (hf : b.first = next + 1) (hs : ∀ c ∈ h.batches, c.status.outstanding = false)
    (hfresh : ∀ id ∈ (b.contents env).batch.operationIds, id ∉ (h.operations env).map Operation.id) :
    HeadInv env mode base b.last { h with batches := h.batches ++ [b] } where
  tiles := Tiles.append.mpr ⟨next,hi.tiles,hf,hb.nonempty,rfl⟩
  batches := by
    intro c hc
    rcases List.mem_append.mp hc with hc | hc
    · exact hi.batches c hc
    · rwa [List.mem_singleton.mp hc]
  ids := by
    simp only [ArtifactHead.operations,List.flatMap_append,List.map_append,List.flatMap_singleton]
    rw [List.nodup_append]
    refine ⟨hi.ids,hb.operation_ids,?_⟩
    rintro id hid id' hid' rfl
    rw [hb.map_id] at hid'
    exact hfresh id hid' hid
  batchIds := by
    rw [List.map_append,List.nodup_append]
    refine ⟨hi.batchIds,by simp,?_⟩
    intro id hid id' hid' he
    obtain ⟨c,hc,rfl⟩ := List.mem_map.mp hid
    have hcb : c.id = b.id := by simpa [he] using hid'
    have hinv := hi.batches c hc
    rw [hinv.hash,hb.hash] at hcb
    obtain ⟨op,hop⟩ := hb.exists_id
    apply hfresh op hop
    rw [← env.batchHash_injective hcb,← hinv.map_id] at hop
    obtain ⟨o,ho,rfl⟩ := List.mem_map.mp hop
    exact List.mem_map_of_mem (List.mem_flatMap.mpr ⟨c,hc,ho⟩)
  settled := by
    rw [List.dropLast_concat]
    exact hs
  baseline := hi.baseline
  distinct := hi.distinct
  hashed := hi.hashed
  replaced := hi.replaced

theorem map {f : BatchHead J → BatchHead J}
    (hb : ∀ b ∈ h.batches, BatchInv env mode h.runId (f b))
    (hf : ∀ b ∈ h.batches, (f b).first = b.first ∧ (f b).last = b.last ∧ (f b).id = b.id ∧ (f b).data = b.data)
    (hs : ∀ b ∈ h.batches, b.status.outstanding = false → (f b).status.outstanding = false) :
    HeadInv env mode base next { h with batches := h.batches.map f } where
  tiles := hi.tiles.map fun b hb => ⟨(hf b hb).1,(hf b hb).2.1⟩
  batches := by
    intro c hc
    obtain ⟨b,hmem,rfl⟩ := List.mem_map.mp hc
    exact hb b hmem
  ids := by
    have hsame : (h.batches.map f).flatMap (fun b => (b.operations env).map Operation.id) =
        h.batches.flatMap fun b => (b.operations env).map Operation.id := by
      rw [List.flatMap_map]
      apply List.flatMap_congr
      intro b hmem
      rw [(hb b hmem).map_id,(hi.batches b hmem).map_id]
      simp only [BatchHead.contents,(hf b hmem).2.2.2]
    have hids := hi.ids
    simp only [ArtifactHead.operations,List.map_flatMap] at hids ⊢
    rwa [hsame]
  batchIds := by
    rw [List.map_map]
    have hsame : h.batches.map (BatchHead.id ∘ f) = h.batches.map BatchHead.id :=
      List.map_congr_left fun b hmem => (hf b hmem).2.2.1
    rw [hsame]
    exact hi.batchIds
  settled := by
    rw [← List.map_dropLast]
    intro c hc
    obtain ⟨b,hmem,rfl⟩ := List.mem_map.mp hc
    exact hs b (List.dropLast_subset _ hmem) (hi.settled b hmem)
  baseline := hi.baseline
  distinct := hi.distinct
  hashed := hi.hashed
  replaced := hi.replaced

end HeadInv

end Jitsu.ReverseEtl
