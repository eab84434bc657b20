import Jitsu.ReverseEtl.Lifecycle

namespace Jitsu.ReverseEtl
open Checked Std

variable {J : Type} {env : Env J} {h : ArtifactHead J} {l : LocalIndex J}

structure SameOperation (op op' : Operation J) : Prop where
  record : op'.record = op.record
  action : op'.action = op.action
  effects : op'.effects = op.effects
  acceptedAt : op'.acceptedAt = op.acceptedAt
  accepted : op'.Accepted ↔ op.Accepted

structure SameOperations (ops ops' : List (Operation J)) : Prop where
  left : ∀ op ∈ ops, ∃ op' ∈ ops', SameOperation op op'
  right : ∀ op' ∈ ops', ∃ op ∈ ops, SameOperation op op'

theorem SameOperations.exists_iff {ops ops' : List (Operation J)} (hs : SameOperations ops ops')
    {P : Operation J → Prop} (hp : ∀ op op', SameOperation op op' → (P op' ↔ P op)) :
    (∃ op ∈ ops', P op) ↔ ∃ op ∈ ops, P op := by
  constructor
  · rintro ⟨op',hop',h⟩
    obtain ⟨op,hop,hsame⟩ := hs.right op' hop'
    exact ⟨op,hop,(hp op op' hsame).mp h⟩
  · rintro ⟨op,hop,h⟩
    obtain ⟨op',hop',hsame⟩ := hs.left op hop
    exact ⟨op',hop',(hp op op' hsame).mpr h⟩

theorem SameOperation.writes_iff {op op' : Operation J} (hs : SameOperation op op') {m : MemberRow J}
    {i : String} : m ∈ op'.writes op'.effects i ↔ m ∈ op.writes op.effects i := by
  simp only [Operation.writes,Set.mem_ofPred_eq,Operation.write,Operation.sequence,hs.accepted,hs.effects,
    hs.action,hs.record,hs.acceptedAt]

theorem SameOperations.writes_eq {ops ops' : List (Operation J)} (hs : SameOperations ops ops')
    (i : String) : writes ops' i = writes ops i := by
  ext m
  exact hs.exists_iff fun _ _ hsame => hsame.writes_iff

theorem Indexed.congr {h' : ArtifactHead J} (hl : Indexed env h l)
    (hs : SameOperations (h.operations env) (h'.operations env)) (hb : h'.baselineEntry = h.baselineEntry)
    (hd : h'.desired = h.desired) (hsealed : h'.isSealed = h.isSealed) (hr : h'.replaced = h.replaced) :
    Indexed env h' l where
  members := by
    intro i hp
    rw [Latest,hs.writes_eq,hb]
    exact hl.members i (by rwa [ArtifactHead.Pruned,hd,hr] at hp)
  pruned := by
    intro i hp
    exact hl.pruned i (by rwa [ArtifactHead.Pruned,hd,hr] at hp)
  touched := by
    intro i
    rw [hl.touched]
    exact (hs.exists_iff fun _ _ hsame => by rw [hsame.effects]).symm
  sequences := by
    intro j n
    rw [hl.sequences]
    exact (hs.exists_iff fun _ _ hsame => by
      rw [Operation.id,Operation.sequence,hsame.record,Operation.id,Operation.sequence]).symm
  accepted := by
    intro j
    rw [hl.accepted]
    exact (hs.exists_iff fun _ _ hsame => by
      rw [Operation.id,hsame.record,hsame.accepted,Operation.id]).symm
  desired := by
    intro hsl i
    rw [hl.desired (hsealed ▸ hsl),ArtifactHead.desiredRow,ArtifactHead.desiredRow,hd]
  keyed := hl.keyed
  hashed := hl.hashed

theorem operationOf_same {b b' : BatchHead J} {row : Record J × List (Effect J)} {action : Action}
    {receipt : Option (ReceiptData J)} :
    SameOperation (operationOf b action receipt row) (operationOf b' action receipt row) :=
  ⟨rfl,rfl,rfl,rfl,operationOf_accepted.trans operationOf_accepted.symm⟩

variable {f : BatchHead J → BatchHead J}

theorem restatus_same
    (hf : ∀ b ∈ h.batches, (f b).data = b.data ∧ (f b).receipt = b.receipt) :
    SameOperations (h.operations env)
      (({ h with batches := h.batches.map f } : ArtifactHead J).operations env) := by
  have hops : ∀ b ∈ h.batches, (f b).operations env =
      ((b.contents env).batch.records.zip (b.contents env).effects).map
        (operationOf (f b) (b.contents env).batch.action b.receiptData) := by
    intro b hb
    simp only [BatchHead.operations,operationsOf,BatchHead.contents,BatchHead.receiptData,(hf b hb).1,
      (hf b hb).2]
  constructor
  · intro op hop
    obtain ⟨b,hb,hop⟩ := List.mem_flatMap.mp hop
    obtain ⟨row,hrow,rfl⟩ := List.mem_map.mp hop
    have hmem := List.mem_map_of_mem (f := operationOf (f b) (b.contents env).batch.action b.receiptData) hrow
    rw [← hops b hb] at hmem
    exact ⟨_,List.mem_flatMap.mpr ⟨f b,List.mem_map_of_mem hb,hmem⟩,operationOf_same⟩
  · intro op' hop'
    obtain ⟨b',hb',hop'⟩ := List.mem_flatMap.mp hop'
    obtain ⟨b,hb,rfl⟩ := List.mem_map.mp hb'
    rw [hops b hb] at hop'
    obtain ⟨row,hrow,rfl⟩ := List.mem_map.mp hop'
    exact ⟨_,List.mem_flatMap.mpr ⟨b,hb,List.mem_map_of_mem hrow⟩,operationOf_same⟩

theorem Indexed.restatus (hl : Indexed env h l)
    (hf : ∀ b ∈ h.batches, (f b).data = b.data ∧ (f b).receipt = b.receipt) :
    Indexed env { h with batches := h.batches.map f } l :=
  hl.congr (restatus_same hf) rfl rfl rfl rfl

theorem deliveries_map (hf : ∀ b ∈ h.batches, (f b).data = b.data) :
    ({ h with batches := h.batches.map f } : ArtifactHead J).deliveries env = h.deliveries env := by
  simp only [ArtifactHead.deliveries,ArtifactHead.operations,List.flatMap_map,List.map_flatMap]
  apply List.flatMap_congr
  intro b hb
  simp only [BatchHead.operations,operationsOf,BatchHead.contents,(hf b hb),List.map_map]
  rfl

theorem MirrorInv.map (hm : MirrorInv env h)
    (hf : ∀ b ∈ h.batches, (f b).data = b.data) : MirrorInv env { h with batches := h.batches.map f } where
  unsealed := by
    intro hs
    rw [hm.unsealed hs]
    rfl
  removals := by
    rw [deliveries_map hf]
    exact hm.removals
  uploads := by
    rw [deliveries_map hf]
    exact hm.uploads
  once := by
    rw [deliveries_map hf]
    exact hm.once

theorem MirrorInv.congr {h' : ArtifactHead J} (hm : MirrorInv env h) (hb : h'.batches = h.batches)
    (hd : h'.desired = h.desired) (hs : h'.isSealed = h.isSealed) (hn : h'.isNative = h.isNative) :
    MirrorInv env h' := by
  have hdel : h'.deliveries env = h.deliveries env := by
    rw [ArtifactHead.deliveries,ArtifactHead.operations,hb]
    rfl
  refine ⟨?_,?_,?_,?_⟩
  · rw [hs,hb]
    exact hm.unsealed
  · rw [hdel,hd]
    exact hm.removals
  · rw [hn,hdel,hd]
    exact hm.uploads
  · rw [hn,hdel]
    exact hm.once

section Replacement

variable {status : ReplacementStatus}

theorem replacement_isSealed : ((HeadEdit.replacement status).apply h).isSealed = h.isSealed := by
  rcases h with ⟨_,_,_ | s,_⟩ <;> rfl

theorem replacement_isNative : ((HeadEdit.replacement status).apply h).isNative = h.isNative := by
  rcases h with ⟨_,_,_ | s,_⟩ <;> rfl

theorem replacement_desired : ((HeadEdit.replacement status).apply h).desired = h.desired := by
  rcases h with ⟨_,_,_ | s,_⟩ <;> rfl

theorem replacement_replaced : ((HeadEdit.replacement status).apply h).replaced =
    (h.isNative && status = .accepted) := by
  rcases h with ⟨_,_,_ | s,_⟩ <;> simp [HeadEdit.apply,ArtifactHead.replaced,ArtifactHead.isNative,
    SnapshotHead.withReplacement,SnapshotHead.native]

variable {mode : Mode} {base next : ℕ}

theorem HeadInv.replacement (hi : HeadInv env mode base next h)
    (hr : h.isNative = true → status = .accepted → h.isSealed = true) :
    HeadInv env mode base next ((HeadEdit.replacement status).apply h) := { hi with
  distinct := by
    rw [replacement_desired]
    exact hi.distinct
  hashed := by
    rw [replacement_desired]
    exact hi.hashed
  replaced := by
    rw [replacement_replaced,replacement_isSealed]
    simpa using hr }

theorem MirrorInv.replacement (hm : MirrorInv env h) :
    MirrorInv env ((HeadEdit.replacement status).apply h) :=
  hm.congr rfl replacement_desired replacement_isSealed replacement_isNative

theorem SameOperations.refl (ops : List (Operation J)) : SameOperations ops ops :=
  ⟨fun op hop => ⟨op,hop,rfl,rfl,rfl,rfl,Iff.rfl⟩,fun op hop => ⟨op,hop,rfl,rfl,rfl,rfl,Iff.rfl⟩⟩

theorem Indexed.replacement (hl : Indexed env h l) (hr : h.replaced = false)
    (hs : h.isNative = true → status ≠ .accepted) :
    Indexed env ((HeadEdit.replacement status).apply h) l := by
  refine hl.congr (.refl _) rfl replacement_desired replacement_isSealed ?_
  rw [replacement_replaced,hr]
  simpa using hs

theorem Indexed.accept (hl : Indexed env h l) (hr : h.replaced = false) (hn : h.isNative = true)
    (hs : h.isSealed = true) : Indexed env ((HeadEdit.replacement .accepted).apply h) l.applyReplacement := by
  have hpruned : ∀ i, ((HeadEdit.replacement .accepted).apply h).Pruned i ↔ i ∉ l.desired := by
    intro i
    rw [mem_desired_iff (hl.desired hs),ArtifactHead.Pruned,replacement_replaced,replacement_desired,hn]
    simp
  have hnot : ∀ i, ¬h.Pruned i := fun i hp => Bool.false_ne_true (hr.symm.trans hp.1)
  refine ⟨?_,?_,hl.touched,hl.sequences,hl.accepted,?_,hl.keyed,hl.hashed⟩
  · intro i hi
    rw [hpruned,not_not] at hi
    rw [LocalIndex.applyReplacement_getElem?,if_pos hi]
    exact hl.members i (hnot i)
  · intro i hi
    rw [hpruned] at hi
    rw [LocalIndex.applyReplacement_getElem?,if_neg hi]
  · intro _ i
    rw [ArtifactHead.desiredRow,replacement_desired]
    exact hl.desired hs i

end Replacement

section Snapshot

variable {p : SnapshotHead J} {mode : Mode} {base next : ℕ}

theorem desired_of_unsealed (hs : h.isSealed = false) : h.desired = [] := by
  rw [ArtifactHead.desired,ArtifactHead.parts,hs]
  rfl

theorem deliveries_nil (hb : h.batches = []) : h.deliveries env = [] := by
  simp [ArtifactHead.deliveries,ArtifactHead.operations,hb]

theorem MirrorInv.of_batches (hb : h.batches = []) : MirrorInv env h where
  unsealed := fun _ => hb
  removals := by simp [deliveries_nil hb]
  uploads := by simp [deliveries_nil hb]
  once := by simp [deliveries_nil hb]

theorem HeadInv.withSnapshot (hi : HeadInv env mode base next h)
    (hn : (((HeadEdit.snapshot p).apply h).desired.map Effect.identityHash).Nodup)
    (hh : ∀ e ∈ ((HeadEdit.snapshot p).apply h).desired, e.identityHash ≠ "")
    (hr : p.replacementStatus = none) : HeadInv env mode base next ((HeadEdit.snapshot p).apply h) := { hi with
  distinct := hn
  hashed := hh
  replaced := by simp [HeadEdit.apply,ArtifactHead.replaced,hr] }

theorem snapshot_unreplaced (hr : p.replacementStatus = none) :
    ((HeadEdit.snapshot p).apply h).replaced = false := by
  simp [HeadEdit.apply,ArtifactHead.replaced,hr]

theorem snapshot_desired : ((HeadEdit.snapshot p).apply h).desired =
    if p.isSealed then p.parts.flatMap ArtifactRef.value else [] := by
  rcases hs : p.isSealed with _ | _ <;>
    simp [HeadEdit.apply,ArtifactHead.desired,ArtifactHead.parts,ArtifactHead.isSealed,hs]

theorem HeadInv.start (hi : HeadInv env mode base next h) (hs : p.isSealed = false)
    (hr : p.replacementStatus = none) : HeadInv env mode base next ((HeadEdit.snapshot p).apply h) := by
  have hd : ((HeadEdit.snapshot p).apply h).desired = [] := by simp [snapshot_desired,hs]
  exact hi.withSnapshot (by simp [hd]) (by simp [hd]) hr

theorem HeadInv.replaced_false (hi : HeadInv env mode base next h) (hs : h.isSealed = false) :
    h.replaced = false := by
  rcases hr : h.replaced with _ | _
  · rfl
  · rw [hi.replaced hr] at hs
    cases hs

theorem Indexed.start (hl : Indexed env h l) (hi : HeadInv env mode base next h) (hh : h.isSealed = false)
    (hs : p.isSealed = false) (hr : p.replacementStatus = none) :
    Indexed env ((HeadEdit.snapshot p).apply h) l := by
  refine hl.congr (.refl _) rfl ?_ ?_ ?_
  · rw [snapshot_desired,desired_of_unsealed hh,hs]
    rfl
  · rw [hh]
    exact hs
  · rw [snapshot_unreplaced hr,hi.replaced_false hh]

structure Sealed (l : LocalIndex J) (p : SnapshotHead J) : Prop where
  isSealed : p.isSealed = true
  unreplaced : p.replacementStatus = none
  parts : p.parts.flatMap ArtifactRef.value = l.desiredValues

theorem Sealed.desired (hp : Sealed l p) : ((HeadEdit.snapshot p).apply h).desired = l.desiredValues := by
  rw [snapshot_desired,hp.isSealed,if_pos rfl,hp.parts]

theorem HeadInv.seal (hi : HeadInv env mode base next h) (hl : Indexed env h l) (hp : Sealed l p) :
    HeadInv env mode base next ((HeadEdit.snapshot p).apply h) := by
  refine hi.withSnapshot ?_ ?_ hp.unreplaced
  · rw [hp.desired]
    exact LocalIndex.desiredValues_nodup hl.keyed
  · rw [hp.desired]
    intro e he hempty
    obtain ⟨i,d,hd,rfl⟩ := LocalIndex.mem_desiredValues.mp he
    rw [(hl.keyed i d hd).2] at hempty
    subst hempty
    exact hl.hashed (ExtTreeMap.mem_iff_isSome_getElem?.mpr (by simp [hd]))

theorem Indexed.seal (hl : Indexed env h l) (hr : h.replaced = false) (hp : Sealed l p) :
    Indexed env ((HeadEdit.snapshot p).apply h) l := by
  have hnot : ∀ i, ¬h.Pruned i := fun i hq => Bool.false_ne_true (hr.symm.trans hq.1)
  refine ⟨fun i _ => hl.members i (hnot i),?_,hl.touched,hl.sequences,hl.accepted,?_,hl.keyed,hl.hashed⟩
  · intro i hq
    exact absurd hq.1 (by simp [snapshot_unreplaced hp.unreplaced])
  · intro _ i
    rw [ArtifactHead.desiredRow,hp.desired,LocalIndex.desiredValues_find? hl.keyed]

end Snapshot

section Status

variable {mode : Mode} {base next : ℕ} {runId id : String} {b : BatchHead J}

theorem BatchInv.unknown (hb : BatchInv env mode runId b) (hs : b.status = .prepared) :
    BatchInv env mode runId { b with status := .unknown } := { hb with
  settled := by
    rcases hb.settled with ⟨_,hr,ha,hst,hrej,hsub⟩ | ⟨_,hs',_,_,_,_⟩ | ⟨_,hs',_,_,_,_⟩
    · exact .outstanding rfl hr ha hst hrej hsub
    · rw [hs] at hs'
      cases hs'
    · rw [hs] at hs'
      cases hs' }

theorem BatchInv.cancel (hb : BatchInv env mode runId b) : BatchInv env mode runId b.cancel := by
  unfold BatchHead.cancel
  split
  · rename_i hst
    refine ⟨hb.stored,hb.named,hb.action,hb.hash,hb.positive,hb.nonempty,hb.sequences,hb.operations,
      hb.projected,hb.distinct,hb.hashed,hb.receipt,?_,?_⟩
    · rcases hb.settled with ⟨_,_,_,h0,_,_⟩ | ⟨r,_,hr,ha,_,hrej⟩ | ⟨_,_,_,_,h0,_⟩
      · omega
      · exact .cancelled r rfl hr ha rfl hrej
      · omega
    · refine Nat.le_trans ?_ hb.submitted
      simp only [BatchHead.submitted]
      cases b.submittedRecords <;> simp
  · exact hb

theorem HeadInv.markUnknown (hi : HeadInv env mode base next h) (hb : b ∈ h.batches) (hid : b.id = id)
    (hs : b.status = .prepared) : HeadInv env mode base next ((HeadEdit.markUnknown id).apply h) := by
  apply hi.map
  · intro c hc
    split
    · rename_i he
      rw [eq_of_batch_id hi hc hb (he.trans hid.symm)]
      exact (hi.batches b hb).unknown hs
    · exact hi.batches c hc
  · intro c _
    split <;> exact ⟨rfl,rfl,rfl,rfl⟩
  · intro c hc ho
    split
    · rename_i he
      rw [eq_of_batch_id hi hc hb (he.trans hid.symm),hs] at ho
      cases ho
    · exact ho

theorem cancel_frame (b : BatchHead J) : b.cancel.first = b.first ∧ b.cancel.last = b.last ∧
    b.cancel.id = b.id ∧ b.cancel.data = b.data ∧ b.cancel.receipt = b.receipt := by
  unfold BatchHead.cancel
  split <;> exact ⟨rfl,rfl,rfl,rfl,rfl⟩

theorem HeadInv.cancelStaged (hi : HeadInv env mode base next h) :
    HeadInv env mode base next (HeadEdit.cancelStaged.apply h) := by
  apply hi.map
  · exact fun b hb => (hi.batches b hb).cancel
  · intro b _
    obtain ⟨h₁,h₂,h₃,h₄,_⟩ := cancel_frame b
    exact ⟨h₁,h₂,h₃,h₄⟩
  · intro b _ ho
    unfold BatchHead.cancel
    split
    · rfl
    · exact ho

end Status

end Jitsu.ReverseEtl
