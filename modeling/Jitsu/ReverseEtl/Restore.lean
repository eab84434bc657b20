import Jitsu.ReverseEtl.Evidence

namespace Jitsu.ReverseEtl
open Checked Std

variable {J : Type} {env : Env J} {mode : Mode} {base next : ℕ} {h : ArtifactHead J}

def ArtifactHead.Pruned (h : ArtifactHead J) (i : String) : Prop :=
  h.replaced = true ∧ ∀ e ∈ h.desired, e.identityHash ≠ i

def ArtifactHead.desiredRow (h : ArtifactHead J) (i : String) : Option (DesiredRow J) :=
  (h.desired.find? (·.identityHash = i)).map LocalIndex.desiredRow

def isAccepted (entry : ℕ × OperationStatus) : Bool := entry.2 = .outcome .accepted

structure Indexed (env : Env J) (h : ArtifactHead J) (l : LocalIndex J) : Prop where
  members : ∀ i, ¬h.Pruned i → Latest h.baselineEntry (h.operations env) i l.members[i]?
  pruned : ∀ i, h.Pruned i → l.members[i]? = none
  touched : ∀ i, i ∈ l.touched ↔ ∃ op ∈ h.operations env, ∃ e ∈ op.effects, e.identityHash = i
  sequences : ∀ j n, (operationEntry l.operations j).map Prod.fst = some n ↔
    ∃ op ∈ h.operations env, op.id = j ∧ op.sequence = n
  accepted : ∀ j, (operationEntry l.operations j).any isAccepted = true ↔
    ∃ op ∈ h.operations env, op.id = j ∧ op.Accepted
  desired : h.isSealed = true → ∀ i, l.desired[i]? = h.desiredRow i
  keyed : l.Keyed
  hashed : "" ∉ l.desired

variable {b : BatchHead J} {runId : String}

theorem batchData_ok (hb : BatchInv env mode runId b) :
    batchData env mode b = .ok (b.contents env) := by
  have hlen : (b.contents env).batch.records.length = b.size := by
    simpa using congrArg List.length hb.sequences
  simp [batchData,hb.stored,hb.named,hlen,hb.projected]

variable {op : Operation J}

section

variable (hb : BatchInv env mode runId b)

include hb

theorem accepted_dated
    (hop : op ∈ b.operations env) (ha : op.Accepted) : op.acceptedAt.isSome := by
  obtain ⟨row,_,rfl⟩ := List.mem_map.mp hop
  obtain ⟨r,hr,ho⟩ := operationOf_accepted.mp ha
  have hdated := (hb.receipt r hr).dated _ (mem_of_outcomeOf ho) rfl
  simpa [operationOf,Option.mem_def.mp hr] using hdated

theorem index_eq (l : LocalIndex J) :
    index env b (b.contents env) b.receiptData l =
      (b.operations env).foldlM indexOperation l := by
  unfold index
  rcases hr : b.receiptData with _ | r
  · simp [BatchHead.operations,hr]
  · have hv := hb.receipt r hr
    have : validateBatchResult env (b.contents env).batch r.result = .ok r.result :=
      validateBatchResult_eq_ok.mpr ⟨rfl,hv.shape,hv.answers⟩
    simp [BatchHead.operations,hr,this]

theorem replayBatch_eq
    (l : LocalIndex J) :
    replayBatch env mode l b = (b.operations env).foldlM indexOperation l := by
  rw [replayBatch,batchData_ok hb]
  exact index_eq hb l

end

theorem replayBatches_eq {bs : List (BatchHead J)}
    (hb : ∀ b ∈ bs, BatchInv env mode runId b) (l : LocalIndex J) :
    bs.foldlM (replayBatch env mode) l = (bs.flatMap (BatchHead.operations env)).foldlM indexOperation l := by
  induction bs generalizing l with
  | nil => rfl
  | cons b bs ih =>
    rw [List.foldlM_cons,List.flatMap_cons,List.foldlM_append,replayBatch_eq (hb b (by simp))]
    congr 1
    funext k
    exact ih (fun c hc => hb c (List.mem_cons_of_mem _ hc)) k

variable {l : LocalIndex J}

theorem restoreBaseline_getElem? {refs : List (ArtifactRef (List (Member J)))}
    {i : String} : (restoreBaseline refs l).members[i]? = (l.members[i]?).or
      (((refs.flatMap ArtifactRef.value).find? (·.effect.identityHash = i)).map LocalIndex.baselineRow) := by
  induction refs generalizing l with
  | nil => simp [restoreBaseline]
  | cons ref refs ih =>
    rw [restoreBaseline,List.foldl_cons,← restoreBaseline,ih,LocalIndex.restoreMembers_getElem?,
      List.flatMap_cons,List.find?_append,Option.or_assoc]
    cases ref.value.find? (·.effect.identityHash = i) <;> simp

theorem restoreBaseline_frame (refs : List (ArtifactRef (List (Member J)))) (l : LocalIndex J) :
    (restoreBaseline refs l).desired = l.desired ∧
    (restoreBaseline refs l).operations = l.operations ∧
    (restoreBaseline refs l).touched = l.touched := by
  induction refs generalizing l with
  | nil => exact ⟨rfl,rfl,rfl⟩
  | cons ref refs ih =>
    obtain ⟨h₁,h₂,h₃⟩ := LocalIndex.restoreMembers_frame l ref.value
    obtain ⟨h₄,h₅,h₆⟩ := ih (l.restoreMembers ref.value)
    exact ⟨h₄.trans h₁,h₅.trans h₂,h₆.trans h₃⟩

theorem restoreParts_eq {refs : List (ArtifactRef (List (Effect J)))} (l : LocalIndex J) :
    refs.foldlM (fun l ref => l.restoreDesired ref.value) l =
      l.restoreDesired (refs.flatMap ArtifactRef.value) := by
  induction refs generalizing l with
  | nil => rfl
  | cons ref refs ih =>
    rw [List.foldlM_cons,List.flatMap_cons,LocalIndex.restoreDesired_append]
    congr 1
    funext k
    exact ih k

theorem HeadInv.oneIdPerSequence (hi : HeadInv env mode base next h) :
    OneIdPerSequence {p | ∃ op ∈ h.operations env, p = (op.id,op.sequence)} := by
  rintro id id' n ⟨op,hop,he⟩ ⟨op',hop',he'⟩
  cases he
  obtain ⟨rfl,hs⟩ := Prod.mk.inj he'
  rw [hi.operation_unique hop hop' hs]

theorem mem_desired_iff (hd : ∀ i, l.desired[i]? = h.desiredRow i) {i : String} :
    i ∈ l.desired ↔ ∃ e ∈ h.desired, e.identityHash = i := by
  rw [ExtTreeMap.mem_iff_isSome_getElem?,hd,ArtifactHead.desiredRow,Option.isSome_map,List.find?_isSome]
  simp

theorem desiredRow_keyed (hd : ∀ i, l.desired[i]? = h.desiredRow i) : l.Keyed := by
  intro i d he
  rw [hd,ArtifactHead.desiredRow,Option.map_eq_some_iff] at he
  obtain ⟨e,hf,rfl⟩ := he
  exact ⟨rfl,by simpa [LocalIndex.desiredRow] using List.find?_some hf⟩

theorem replayed_members (hi : HeadInv env mode base next h) {l' : LocalIndex J}
    (hm : l.members = (restoreBaseline h.baseline .create).members)
    (hidx : Indexes (h.operations env) l l') (i : String) :
    Latest h.baselineEntry (h.operations env) i l'.members[i]? := by
  have hstart : LastWriter.IsLatest MemberRow.sequence (h.baselineEntry i) ∅ l.members[i]? := by
    rw [hm,restoreBaseline_getElem?]
    simpa [ArtifactHead.baselineEntry,ArtifactHead.members] using LastWriter.isLatest_empty
  have hlate := hidx.members ?_ hstart
  · simpa [Latest] using hlate
  · intro b hb op hop
    simp only [ArtifactHead.baselineEntry,Option.mem_def,Option.map_eq_some_iff] at hb
    obtain ⟨m,_,rfl⟩ := hb
    have := (hi.sequence_bounds hop).1
    simp only [LocalIndex.baselineRow,LocalIndex.memberRow_sequence]
    omega

variable {ops : List (Operation J)}

theorem eq_of_operation_id (hn : (ops.map Operation.id).Nodup)
    {op' : Operation J} (hop : op ∈ ops) (hop' : op' ∈ ops) (he : op.id = op'.id) : op = op' :=
  List.inj_on_of_nodup_map hn hop hop' he

section

variable {t t' : Table OperationRow} (hx : Entries ops t t') (hn : (ops.map Operation.id).Nodup) (j : String)

include hx hn

theorem Entries.found (Q : Option (ℕ × OperationStatus) → Prop) :
    Q (operationEntry t' j) ↔ (∃ op ∈ ops, op.id = j ∧ Q (some (op.sequence,op.status))) ∨
      (∀ op ∈ ops, op.id ≠ j) ∧ Q (operationEntry t j) := by
  by_cases hj : ∃ op ∈ ops, op.id = j
  · obtain ⟨op,hop,rfl⟩ := hj
    rw [hx.written op hop]
    constructor
    · exact fun hs => .inl ⟨op,hop,rfl,hs⟩
    · rintro (⟨op',hop',hid,hs⟩ | ⟨hno,_⟩)
      · rwa [← eq_of_operation_id hn hop' hop hid]
      · exact absurd rfl (hno op hop)
  · have hno : ∀ op ∈ ops, op.id ≠ j := fun op hop he => hj ⟨op,hop,he⟩
    rw [hx.kept j hno]
    constructor
    · exact fun hs => .inr ⟨hno,hs⟩
    · rintro (⟨op,hop,hid,_⟩ | ⟨_,hs⟩)
      · exact absurd hid (hno op hop)
      · exact hs

theorem Entries.sequences (n : ℕ) :
    (operationEntry t' j).map Prod.fst = some n ↔ (∃ op ∈ ops, op.id = j ∧ op.sequence = n) ∨
      (∀ op ∈ ops, op.id ≠ j) ∧ (operationEntry t j).map Prod.fst = some n := by
  simpa using hx.found hn j (fun entry => entry.map Prod.fst = some n)

theorem Entries.accepted :
    (operationEntry t' j).any isAccepted = true ↔ (∃ op ∈ ops, op.id = j ∧ op.Accepted) ∨
      (∀ op ∈ ops, op.id ≠ j) ∧ (operationEntry t j).any isAccepted = true := by
  simpa [isAccepted,Operation.Accepted] using hx.found hn j (fun entry => entry.any isAccepted = true)

end

theorem replayed_indexed (hi : HeadInv env mode base next h) {l' : LocalIndex J}
    (hl : (restoreBaseline h.baseline .create).restoreDesired h.desired = .ok l)
    (hl' : (h.operations env).foldlM indexOperation l = .ok l') :
    Indexed env h (if h.replaced then l'.applyReplacement else l') := by
  obtain ⟨hm,ho,ht⟩ := LocalIndex.restoreDesired_frame hl
  obtain ⟨hbd,hbo,hbt⟩ := restoreBaseline_frame h.baseline LocalIndex.create
  have hidx := indexOperations_indexes hl'
  have hmembers := replayed_members hi hm hidx
  have hdesired : ∀ i, l'.desired[i]? = h.desiredRow i := by
    intro i
    rw [hidx.desired,LocalIndex.restoreDesired_getElem? hl,hbd]
    simp [ArtifactHead.desiredRow]
  have hentries := indexOperations_entries hl' hi.ids (by simp [ho,hbo,operationEntry])
  have hpruned : ∀ i, h.Pruned i ↔ h.replaced = true ∧ i ∉ l'.desired := by
    intro i
    rw [mem_desired_iff hdesired]
    simp [ArtifactHead.Pruned]
  have hframe : ∀ k : LocalIndex J, k = (if h.replaced then l'.applyReplacement else l') →
      k.desired = l'.desired ∧ k.operations = l'.operations ∧ k.touched = l'.touched ∧
      ∀ i, k.members[i]? = if h.replaced = true ∧ i ∉ l'.desired then none else l'.members[i]? := by
    rintro k rfl
    by_cases hr : h.replaced = true
    · simp only [hr,if_true,LocalIndex.applyReplacement_getElem?,true_and]
      refine ⟨rfl,rfl,rfl,fun i => ?_⟩
      by_cases hd : i ∈ l'.desired <;> simp [hd]
    · simp [hr]
  obtain ⟨hd,hop,hto,hmem⟩ := hframe _ rfl
  refine ⟨fun i hp => ?_,fun i hp => ?_,fun i => ?_,fun j n => ?_,fun j => ?_,fun _ i => ?_,?_,?_⟩
  · rw [hmem,if_neg (by rwa [← hpruned])]
    exact hmembers i
  · rw [hmem,if_pos (by rwa [← hpruned])]
  · rw [hto,hidx.touched,ht,hbt]
    simp
  · rw [hop,hentries.sequences hi.ids,ho,hbo]
    simp [operationEntry]
  · rw [hop,hentries.accepted hi.ids,ho,hbo]
    simp [operationEntry]
  · rw [hd,hdesired]
  · exact desiredRow_keyed (h := h) (fun i => by rw [hd,hdesired])
  · rw [hd,mem_desired_iff hdesired]
    rintro ⟨e,he,hempty⟩
    exact hi.hashed e he hempty

theorem restore_indexed (hi : HeadInv env mode base next h) :
    ∃ l, restore env mode h = .ok l ∧ Indexed env h l := by
  obtain ⟨hbd,hbo,_⟩ := restoreBaseline_frame h.baseline LocalIndex.create
  obtain ⟨l,hl⟩ := LocalIndex.restoreDesired_total hi.distinct
    (l := restoreBaseline h.baseline .create) (by simp [hbd])
  obtain ⟨_,ho,_⟩ := LocalIndex.restoreDesired_frame hl
  obtain ⟨l',hl',_⟩ := indexOperations_total hi.oneIdPerSequence (fun op hop => ⟨op,hop,rfl⟩)
    (fun op hop ha => by
      obtain ⟨b,hb,hop⟩ := List.mem_flatMap.mp hop
      exact accepted_dated (hi.batches b hb) hop ha) (l := l) (by
      intro id o he
      simp [ho,hbo] at he)
  refine ⟨_,?_,replayed_indexed hi hl hl'⟩
  rw [restore,restoreParts_eq,← ArtifactHead.desired,hl,hi.tiles.sorted.insertionSort_eq,ok_bind,
    replayBatches_eq hi.batches,← ArtifactHead.operations,hl']
  rfl

theorem effects_of_operation (hop : op ∈ b.operations env) :
    op.effects ∈ (b.contents env).effects := by
  obtain ⟨row,hz,rfl⟩ := List.mem_map.mp hop
  exact (List.of_mem_zip hz).2

section

variable (hi : HeadInv env mode base next h)

include hi

theorem HeadInv.effects_distinct
    (hop : op ∈ h.operations env) : (op.effects.map Effect.identityHash).Nodup := by
  obtain ⟨b,hb,hop⟩ := List.mem_flatMap.mp hop
  exact (hi.batches b hb).distinct _ (effects_of_operation hop)

theorem HeadInv.effects_hashed
    (hop : op ∈ h.operations env) {e : Effect J} (he : e ∈ op.effects) : e.identityHash ≠ "" := by
  obtain ⟨b,hb,hop⟩ := List.mem_flatMap.mp hop
  exact (hi.batches b hb).hashed _ (effects_of_operation hop) e he

theorem writes_injOn (i : String) :
    Set.InjOn MemberRow.sequence (writes (h.operations env) i) := by
  rintro m ⟨op,hop,_,e,he,hei,rfl⟩ m' ⟨op',hop',_,e',he',hei',rfl⟩ hs
  have hsame : op = op' := hi.operation_unique hop hop' (by simpa [Operation.write] using hs)
  subst hsame
  rw [List.inj_on_of_nodup_map (hi.effects_distinct hop) he he' (hei.trans hei'.symm)]

end

def acceptedOperations (l : LocalIndex J) : Set (String × ℕ) :=
  {p | ∃ o, l.operations[p.1]? = some o ∧ o.sequence = p.2 ∧ o.status = .outcome .accepted}

structure SameEvidence (l l' : LocalIndex J) : Prop where
  members : l.members = l'.members
  touched : l.touched = l'.touched
  accepted : acceptedOperations l = acceptedOperations l'

theorem mem_acceptedOperations {id : String} {n : ℕ} :
    (id,n) ∈ acceptedOperations l ↔ (operationEntry l.operations id).map Prod.fst = some n ∧
      (operationEntry l.operations id).any isAccepted = true := by
  simp only [acceptedOperations,operationEntry]
  rcases ho : l.operations[id]? with _ | o <;> simp [ho,isAccepted]

theorem Indexed.mem_accepted (hi : HeadInv env mode base next h)
    (hl : Indexed env h l) {id : String} {n : ℕ} : (id,n) ∈ acceptedOperations l ↔
      ∃ op ∈ h.operations env, op.id = id ∧ op.sequence = n ∧ op.Accepted := by
  rw [mem_acceptedOperations,hl.sequences,hl.accepted]
  constructor
  · rintro ⟨⟨op,hop,hid,hn⟩,op',hop',hid',ha⟩
    rw [eq_of_operation_id hi.ids hop' hop (hid'.trans hid.symm)] at ha
    exact ⟨op,hop,hid,hn,ha⟩
  · rintro ⟨op,hop,hid,hn,ha⟩
    exact ⟨⟨op,hop,hid,hn⟩,op,hop,hid,ha⟩

theorem Indexed.unique (hi : HeadInv env mode base next h) {l' : LocalIndex J}
    (hl : Indexed env h l) (hl' : Indexed env h l') : SameEvidence l l' where
  members := by
    apply ExtTreeMap.ext_getElem?
    intro i
    by_cases hp : h.Pruned i
    · rw [hl.pruned i hp,hl'.pruned i hp]
    · exact LastWriter.isLatest_unique (writes_injOn hi i) (hl.members i hp) (hl'.members i hp)
  touched := by
    apply ExtTreeSet.ext_mem
    intro i
    rw [hl.touched,hl'.touched]
  accepted := by
    ext ⟨id,n⟩
    rw [hl.mem_accepted hi,hl'.mem_accepted hi]

structure Extends (env : Env J) (h h' : ArtifactHead J) (b : BatchHead J) : Prop where
  baseline : h'.baseline = h.baseline
  snapshot : h'.snapshot = h.snapshot
  mem : b ∈ h'.batches
  operations : ∀ op, op ∈ h'.operations env ↔ op ∈ b.operations env ∨
    op ∈ h.operations env ∧ ∀ o ∈ b.operations env, o.id ≠ op.id
  kept : ∀ op ∈ h.operations env, ∃ op' ∈ h'.operations env, op'.id = op.id ∧ op'.sequence = op.sequence ∧
    op'.effects = op.effects ∧ (op.Accepted → op'.Accepted ∧ ∀ e, op'.write e = op.write e)

namespace Extends

variable {h' : ArtifactHead J} {b : BatchHead J} (hx : Extends env h h' b)
include hx

theorem mem_operations {op : Operation J} (hop : op ∈ b.operations env) : op ∈ h'.operations env :=
  (hx.operations op).mpr (.inl hop)

theorem replaced_iff (j : String) (Q : Operation J → Prop) :
    ((∃ op ∈ b.operations env, op.id = j ∧ Q op) ∨
      (∀ op ∈ b.operations env, op.id ≠ j) ∧ ∃ op ∈ h.operations env, op.id = j ∧ Q op) ↔
      ∃ op ∈ h'.operations env, op.id = j ∧ Q op := by
  constructor
  · rintro (⟨op,hop,hj⟩ | ⟨hno,op,hop,hid,hq⟩)
    · exact ⟨op,hx.mem_operations hop,hj⟩
    · exact ⟨op,(hx.operations op).mpr (.inr ⟨hop,fun o ho => hid ▸ hno o ho⟩),hid,hq⟩
  · rintro ⟨op,hop,hid,hq⟩
    rcases (hx.operations op).mp hop with hb | ⟨ho,hno⟩
    · exact .inl ⟨op,hb,hid,hq⟩
    · exact .inr ⟨fun o hb => hid ▸ hno o hb,op,ho,hid,hq⟩

theorem writes_eq (i : String) :
    writes (h'.operations env) i = writes (h.operations env) i ∪ writes (b.operations env) i := by
  ext m
  constructor
  · rintro ⟨op,hop,hm⟩
    rcases (hx.operations op).mp hop with hb | ⟨ho,_⟩
    · exact .inr ⟨op,hb,hm⟩
    · exact .inl ⟨op,ho,hm⟩
  · rintro (⟨op,hop,ha,e,he,hi,rfl⟩ | ⟨op,hop,hm⟩)
    · obtain ⟨op',hop',_,_,heff,hacc⟩ := hx.kept op hop
      exact ⟨op',hop',(hacc ha).1,e,heff ▸ he,hi,((hacc ha).2 e).symm⟩
    · exact ⟨op,hx.mem_operations hop,hm⟩

theorem touched_iff (i : String) :
    (∃ op ∈ h'.operations env, ∃ e ∈ op.effects, e.identityHash = i) ↔
      (∃ op ∈ h.operations env, ∃ e ∈ op.effects, e.identityHash = i) ∨
      ∃ op ∈ b.operations env, ∃ e ∈ op.effects, e.identityHash = i := by
  constructor
  · rintro ⟨op,hop,he⟩
    rcases (hx.operations op).mp hop with hb | ⟨ho,_⟩
    · exact .inr ⟨op,hb,he⟩
    · exact .inl ⟨op,ho,he⟩
  · rintro (⟨op,hop,he⟩ | ⟨op,hop,he⟩)
    · obtain ⟨op',hop',_,_,heff,_⟩ := hx.kept op hop
      exact ⟨op',hop',heff ▸ he⟩
    · exact ⟨op,hx.mem_operations hop,he⟩

theorem frame : h'.replaced = h.replaced ∧ h'.isSealed = h.isSealed ∧ h'.desired = h.desired ∧
    h'.baselineEntry = h.baselineEntry := by
  obtain ⟨hb,hs,_,_,_⟩ := hx
  cases h
  cases h'
  cases hb
  cases hs
  exact ⟨rfl,rfl,rfl,rfl⟩

end Extends

theorem Indexed.extend {h' : ArtifactHead J}
    (hi : HeadInv env mode base next h') (hx : Extends env h h' b) (hr : h.replaced = false)
    (hl : Indexed env h l) :
    ∃ l', (b.operations env).foldlM indexOperation l = .ok l' ∧ Indexed env h' l' := by
  obtain ⟨hfr,hfs,hfd,hfb⟩ := hx.frame
  have hids := (hi.batches b hx.mem).operation_ids
  have hseq : ∀ j n, (operationEntry l.operations j).map Prod.fst = some n →
      ∃ op ∈ h'.operations env, op.id = j ∧ op.sequence = n := by
    intro j n he
    obtain ⟨op,hop,rfl,rfl⟩ := (hl.sequences j n).mp he
    obtain ⟨op',hop',hid,hs,_⟩ := hx.kept op hop
    exact ⟨op',hop',hid,hs⟩
  obtain ⟨l',hl',_⟩ := indexOperations_total hi.oneIdPerSequence
    (fun op hop => ⟨op,hx.mem_operations hop,rfl⟩)
    (fun op hop ha => accepted_dated (hi.batches b hx.mem) hop ha) (l := l) (by
      intro id o ho
      obtain ⟨op,hop,rfl,hs⟩ := hseq id o.sequence (by simp [operationEntry,ho])
      exact ⟨op,hop,by rw [hs]⟩)
  have hentries := indexOperations_entries hl' hids (by
    intro op hop n he
    obtain ⟨op',hop',hid,hs⟩ := hseq op.id n he
    rw [← hs,eq_of_operation_id hi.ids hop' (hx.mem_operations hop) hid])
  have hidx := indexOperations_indexes hl'
  have hnot : ∀ i, ¬h'.Pruned i := fun i hp => by simp [ArtifactHead.Pruned,hfr,hr] at hp
  have hnot' : ∀ i, ¬h.Pruned i := fun i hp => by simp [ArtifactHead.Pruned,hr] at hp
  refine ⟨l',hl',fun i _ => ?_,fun i hp => absurd hp (hnot i),fun i => ?_,fun j n => ?_,fun j => ?_,
    fun hs i => ?_,?_,?_⟩
  · rw [Latest,hx.writes_eq,hfb]
    refine hidx.members ?_ (hl.members i (hnot' i))
    intro m hm op hop
    simp only [ArtifactHead.baselineEntry,Option.mem_def,Option.map_eq_some_iff] at hm
    obtain ⟨_,_,rfl⟩ := hm
    have := (hi.sequence_bounds (hx.mem_operations hop)).1
    simp only [LocalIndex.baselineRow,LocalIndex.memberRow_sequence]
    omega
  · rw [hidx.touched,hl.touched,hx.touched_iff]
  · rw [hentries.sequences hids,hl.sequences]
    exact hx.replaced_iff j (fun op => op.sequence = n)
  · rw [hentries.accepted hids,hl.accepted]
    exact hx.replaced_iff j Operation.Accepted
  · rw [hidx.desired,hl.desired (hfs ▸ hs),ArtifactHead.desiredRow,ArtifactHead.desiredRow,hfd]
  · intro i d hd
    rw [hidx.desired] at hd
    exact hl.keyed i d hd
  · rw [hidx.desired]
    exact hl.hashed

theorem Indexed.mem_operations (hl : Indexed env h l)
    (hop : op ∈ h.operations env) : op.id ∈ l.operations := by
  have he := (hl.sequences op.id op.sequence).mpr ⟨op,hop,rfl,rfl⟩
  rw [ExtTreeMap.mem_iff_isSome_getElem?]
  rcases ho : l.operations[op.id]? with _ | o
  · simp [operationEntry,ho] at he
  · rfl

end Jitsu.ReverseEtl
