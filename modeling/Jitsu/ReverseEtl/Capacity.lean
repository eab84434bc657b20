import Jitsu.Lib.Tally
import Jitsu.ReverseEtl.Receipts

namespace Jitsu.ReverseEtl
open Checked Std Tally

section Weight

variable {J : Type} {env : Env J} {w : Effect J → ℕ} {l l' : LocalIndex J}

def MemberRow.weight (w : Effect J → ℕ) (m : MemberRow J) : ℕ := m.value.elim 0 w

def LocalIndex.weight (w : Effect J → ℕ) (l : LocalIndex J) : ℕ := tally (MemberRow.weight w) l.members

theorem sum_memberValues (w : Effect J → ℕ) (rows : List (String × MemberRow J)) :
    ((rows.filterMap fun (_,m) => m.value.map fun effect => (⟨effect,m.acceptedAt,m.uncertain⟩ : Member J)).map
      fun m => w m.effect).sum = (rows.map fun p => p.2.weight w).sum := by
  induction rows with
  | nil => rfl
  | cons p rows ih =>
    rw [List.map_cons,List.sum_cons,← ih]
    rcases hv : p.2.value with _ | e <;> simp [hv,MemberRow.weight]

theorem LocalIndex.entries_eq (l : LocalIndex J) : l.entries = l.weight fun _ => 1 := by
  have h := sum_memberValues (fun _ => 1) l.members.toList
  rw [LocalIndex.weight,tally,← h]
  simp [LocalIndex.entries,LocalIndex.memberValues]

theorem LocalIndex.bytes_eq (env : Env J) (l : LocalIndex J) : l.bytes env = l.weight env.effectBytes :=
  sum_memberValues _ _

theorem applyReplacement_weight : l.applyReplacement.weight w ≤ l.weight w := tally_filter_le

variable {t : Table (MemberRow J)} {m : MemberRow J}

theorem offerMember_weight {i : String} :
    tally (MemberRow.weight w) (LocalIndex.offerMember t i m) ≤
      tally (MemberRow.weight w) t + m.weight w := by
  unfold LocalIndex.offerMember
  split
  · exact tally_insert_le
  · split
    · exact tally_insert_le
    · exact Nat.le_add_right _ _

def Operation.load (w : Effect J → ℕ) (op : Operation J) : ℕ :=
  (op.effects.map fun e => (op.write e).weight w).sum

variable {op : Operation J} {es : List (Effect J)}

theorem indexEffects_weight
    (h : es.foldlM (indexEffect op) l = .ok l') :
    l'.weight w ≤ l.weight w + (es.map fun e => (op.write e).weight w).sum := by
  induction es generalizing l with
  | nil =>
    cases h
    exact Nat.le_add_right _ _
  | cons e es ih =>
    rw [List.foldlM_cons,bind_eq_ok] at h
    obtain ⟨k,hk,h⟩ := h
    obtain ⟨_,rfl⟩ := indexEffect_eq_ok.mp hk
    have hrest := ih h
    have hstep : (LocalIndex.weight w { l with
        touched := l.touched.insert e.identityHash
        members := if op.Accepted then LocalIndex.offerMember l.members e.identityHash (op.write e)
          else l.members }) ≤ l.weight w + (op.write e).weight w := by
      simp only [LocalIndex.weight]
      split
      · exact offerMember_weight
      · exact Nat.le_add_right _ _
    rw [List.map_cons,List.sum_cons]
    omega

def LocalIndex.Covers (l : LocalIndex J) (op : Operation J) : Prop :=
  ∀ e ∈ op.effects, ∃ m, l.members[e.identityHash]? = some m ∧ op.sequence ≤ m.sequence

theorem offerMember_covered {i : String} {row : MemberRow J}
    (hm : t[i]? = some m) (hs : row.sequence ≤ m.sequence) : LocalIndex.offerMember t i row = t := by
  unfold LocalIndex.offerMember
  simp [hm,hs]

theorem indexEffects_unmoved
    (hc : op.Accepted → ∀ e ∈ es, ∃ m, l.members[e.identityHash]? = some m ∧ op.sequence ≤ m.sequence)
    (h : es.foldlM (indexEffect op) l = .ok l') : l'.members = l.members := by
  induction es generalizing l with
  | nil =>
    cases h
    rfl
  | cons e es ih =>
    rw [List.foldlM_cons,bind_eq_ok] at h
    obtain ⟨k,hk,h⟩ := h
    obtain ⟨_,rfl⟩ := indexEffect_eq_ok.mp hk
    have hsame : (if op.Accepted then LocalIndex.offerMember l.members e.identityHash (op.write e)
        else l.members) = l.members := by
      split
      · next ha =>
        obtain ⟨m,hm,hs⟩ := hc ha e (by simp)
        exact offerMember_covered hm (by simpa [Operation.write] using hs)
      · rfl
    rw [hsame] at h
    exact ih (l := { l with touched := l.touched.insert e.identityHash })
      (fun ha e he => hc ha e (List.mem_cons_of_mem _ he)) h

theorem offerMember_grows {j : String} (i : String)
    (row : MemberRow J) (hm : t[j]? = some m) : ∃ m', (LocalIndex.offerMember t i row)[j]? = some m' ∧
      m.sequence ≤ m'.sequence := by
  rw [LocalIndex.offerMember_getElem?]
  split
  · rename_i he
    subst he
    rw [hm,LastWriter.offer]
    split
    · exact ⟨row,rfl,Nat.le_of_lt ‹_›⟩
    · exact ⟨m,rfl,le_rfl⟩
  · exact ⟨m,hm,le_rfl⟩

theorem indexEffects_grows {j : String}
    (h : es.foldlM (indexEffect op) l = .ok l') (hm : l.members[j]? = some m) :
    ∃ m', l'.members[j]? = some m' ∧ m.sequence ≤ m'.sequence := by
  induction es generalizing l m with
  | nil =>
    cases h
    exact ⟨m,hm,le_rfl⟩
  | cons e es ih =>
    rw [List.foldlM_cons,bind_eq_ok] at h
    obtain ⟨k,hk,h⟩ := h
    obtain ⟨_,rfl⟩ := indexEffect_eq_ok.mp hk
    by_cases ha : op.Accepted
    · rw [if_pos ha] at h
      obtain ⟨m',hm',hle⟩ := offerMember_grows e.identityHash (op.write e) hm
      obtain ⟨m'',hm'',hle'⟩ := ih h hm'
      exact ⟨m'',hm'',hle.trans hle'⟩
    · rw [if_neg ha] at h
      exact ih h hm

theorem LocalIndex.Covers.index {op' : Operation J} (hc : l.Covers op) (h : indexOperation l op' = .ok l') :
    l'.Covers op := by
  intro e he
  obtain ⟨m,hm,hs⟩ := hc e he
  simp only [indexOperation,bind_eq_ok] at h
  obtain ⟨t,_,h⟩ := h
  obtain ⟨m',hm',hle⟩ := indexEffects_grows h hm
  exact ⟨m',hm',hs.trans hle⟩

theorem indexOperations_weight {ops : List (Operation J)} (new : Operation J → Bool)
    (hc : ∀ op ∈ ops, op.Accepted → new op = false → l.Covers op)
    (h : ops.foldlM indexOperation l = .ok l') :
    l'.weight w ≤ l.weight w + ((ops.filter fun op => op.Accepted ∧ new op = true).map (·.load w)).sum := by
  induction ops generalizing l with
  | nil =>
    cases h
    exact Nat.le_add_right _ _
  | cons op ops ih =>
    rw [List.foldlM_cons,bind_eq_ok] at h
    obtain ⟨k,hk,h⟩ := h
    have hrest := ih (fun o ho ha hn => (hc o (List.mem_cons_of_mem _ ho) ha hn).index hk) h
    simp only [indexOperation,bind_eq_ok] at hk
    obtain ⟨t,_,hk⟩ := hk
    by_cases hn : op.Accepted ∧ new op = true
    · have hstep : k.weight w ≤ l.weight w + op.load w :=
        indexEffects_weight (l := { l with operations := t }) hk
      simp only [List.filter_cons,hn,decide_true,and_self,if_true,List.map_cons,List.sum_cons]
      omega
    · have hsame : k.members = l.members := indexEffects_unmoved (l := { l with operations := t })
        (fun ha => hc op (by simp) ha (Bool.eq_false_iff.mpr fun he => hn ⟨ha,he⟩)) hk
      have hw : k.weight w = l.weight w := by rw [LocalIndex.weight,hsame,LocalIndex.weight]
      simpa [hn,hw] using hrest

end Weight

section Reservation

variable {J : Type} {env : Env J} {b : BatchHead J}

abbrev Delivered (J : Type) := Record J × List (Effect J)

def BatchHead.delivered (env : Env J) (b : BatchHead J) : List (Delivered J) :=
  (b.contents env).batch.records.zip (b.contents env).effects

def unresolved (receipt : Option (ReceiptData J)) (row : Delivered J) : Bool :=
  receipt.all fun r => outcomeOf r.result.outcomes row.1.operationId = some .staged

def BatchHead.retained (env : Env J) (b : BatchHead J) : List (List (Effect J)) :=
  ((b.delivered env).filter (unresolved b.receiptData)).map Prod.snd

def reservation (env : Env J) (projected : List (List (Effect J))) : ℕ :=
  if projected = [] then 0 else projectedBytes env projected

structure BatchHead.Reserved (env : Env J) (b : BatchHead J) : Prop where
  entries : b.reservedEntries = (b.retained env).flatten.length
  bytes : b.reservedBytes = reservation env (b.retained env)

def BatchHead.Reserves (env : Env J) (b : BatchHead J) : Prop :=
  b.status ≠ .cancelled → b.action = .upsert → b.Reserved env

theorem le_arrayBytes (sizes : List ℕ) : sizes.sum ≤ arrayBytes sizes := by
  unfold arrayBytes
  omega

def framedBytes (env : Env J) (es : List (Effect J)) : ℕ := arrayBytes (es.map env.effectBytes) + 1

theorem reservation_eq (projected : List (List (Effect J))) : reservation env projected =
    if projected = [] then 0 else 1 + (projected.map (framedBytes env)).sum := by
  unfold reservation
  split
  · rfl
  · rename_i hne
    have hsum : (projected.map (framedBytes env)).sum =
        (projected.map fun es => arrayBytes (es.map env.effectBytes)).sum + projected.length := by
      rw [show framedBytes env = fun es => arrayBytes (es.map env.effectBytes) + 1 from rfl,
        List.sum_map_add]
      simp
    have hpos : 0 < projected.length := List.length_pos_iff.mpr hne
    rw [hsum,projectedBytes,arrayBytes,List.length_map]
    omega

theorem sum_filter_split {f g : Delivered J → ℕ} (hg : ∀ row, g row ≤ f row) (p : Delivered J → Bool)
    (rows : List (Delivered J)) :
    ((rows.filter p).map f).sum + ((rows.filter fun row => !p row).map g).sum ≤ (rows.map f).sum := by
  induction rows with
  | nil => rfl
  | cons row rows ih =>
    have hle := hg row
    rcases hp : p row with _ | _ <;> simp [hp] <;> omega

structure Gauge (env : Env J) (w : Effect J → ℕ) (f : BatchHead J → ℕ)
    (cost : List (List (Effect J)) → ℕ) : Prop where
  split : ∀ p (rows : List (Delivered J)), cost ((rows.filter p).map Prod.snd) +
    ((rows.filter fun row => !p row).map fun row => (row.2.map w).sum).sum ≤ cost (rows.map Prod.snd)
  held : ∀ b : BatchHead J, b.Reserved env → f b = cost (b.retained env)

theorem Gauge.entries : Gauge env (fun _ => 1) BatchHead.reservedEntries fun projected =>
    projected.flatten.length where
  split p rows := by
    simpa [List.length_flatten,List.map_map,Function.comp_def] using
      sum_filter_split (f := fun row => row.2.length) (fun _ => le_rfl) p rows
  held _ h := h.entries

theorem Gauge.bytes : Gauge env env.effectBytes BatchHead.reservedBytes (reservation env) where
  split p rows := by
    have hsum := sum_filter_split (f := framedBytes env ∘ Prod.snd)
      (g := fun row => (row.2.map env.effectBytes).sum)
      (fun _ => (le_arrayBytes _).trans (Nat.le_succ _)) p rows
    rw [reservation_eq,reservation_eq,List.map_map,List.map_map]
    by_cases hrows : rows = []
    · simp [hrows]
    · have hne : rows.map Prod.snd ≠ [] := by simpa using hrows
      rw [if_neg hne]
      split <;> omega
  held _ h := h.bytes

theorem sum_filter_le {α : Type} {p q : α → Bool} {f : α → ℕ} {xs : List α}
    (h : ∀ x ∈ xs, p x = true → q x = true) :
    ((xs.filter p).map f).sum ≤ ((xs.filter q).map f).sum := by
  have hsub : (xs.filter p).Sublist (xs.filter q) := by
    rw [show xs.filter p = (xs.filter q).filter p by
      rw [List.filter_filter]
      apply List.filter_congr
      intro x hx
      rcases hp : p x with _ | _
      · rfl
      · rw [h x hx hp]
        rfl]
    exact List.filter_sublist
  exact (hsub.map f).sum_le_sum fun _ _ => Nat.zero_le _

theorem sum_replace {bs : List (BatchHead J)} {old : BatchHead J} (new : BatchHead J)
    (hn : (bs.map BatchHead.id).Nodup) (hm : old ∈ bs) (f : BatchHead J → ℕ) :
    ((bs.map fun row => if row.id = old.id then new else row).map f).sum + f old =
      (bs.map f).sum + f new := by
  induction bs with
  | nil => cases hm
  | cons b bs ih =>
    rw [List.map_cons,List.nodup_cons] at hn
    rcases List.mem_cons.mp hm with rfl | hm
    · have hrest : (bs.map fun row => if row.id = old.id then new else row) = bs := by
        refine (List.map_congr_left fun row hrow => ?_).trans (List.map_id bs)
        have hne : row.id ≠ old.id := fun he => hn.1 (he ▸ List.mem_map_of_mem hrow)
        exact if_neg hne
      simp only [List.map_cons,if_true,List.sum_cons,hrest]
      omega
    · have hne : b.id ≠ old.id := fun he => hn.1 (he ▸ List.mem_map_of_mem hm)
      have := ih hn.2 hm
      simp only [List.map_cons,if_neg hne,List.sum_cons]
      omega

end Reservation

section Acknowledged

variable {J : Type} {env : Env J} {s : Session J} {c : ControlRow J} {id : String} {input : BatchResult J}
  {reconciled : Bool} {finishAt : Option ℕ} {old : BatchHead J} {w : Effect J → ℕ} {time : ℕ}

def fresh (previous : Option (ReceiptData J)) (input : BatchResult J) (row : Delivered J) : Bool :=
  outcomeOf input.outcomes row.1.operationId = some .accepted &&
    (previous.bind fun r => outcomeOf r.result.outcomes row.1.operationId) ≠ some .accepted

theorem ackHead_delivered : (ackHead env old input time).delivered env = old.delivered env := rfl

theorem ackHead_operations : (ackHead env old input time).operations env =
    (old.delivered env).map (operationOf (ackHead env old input time) (old.contents env).batch.action
      (some (ackReceipt old input time))) := rfl

variable {row : Delivered J}

theorem operationOf_load {head : BatchHead J} {receipt : Option (ReceiptData J)}
    {action : Action} : (operationOf head action receipt row).load w =
      if action = .upsert then (row.2.map w).sum else 0 := by
  cases action <;>
    simp [Operation.load,Operation.write,operationOf,LocalIndex.memberRow,MemberRow.weight]

variable {mode : Mode} {runId : String}

theorem Acknowledged.known
    (hk : Acknowledged env id input reconciled finishAt s c old)
    (hb : BatchInv env mode runId old) {r : ReceiptData J} (hr : r ∈ old.receiptData)
    (hrow : row ∈ old.delivered env) :
    (∃ status, outcomeOf r.result.outcomes row.1.operationId = some status) ∧
      ∀ status, outcomeOf r.result.outcomes row.1.operationId = some status → status ≠ .staged →
        outcomeOf input.outcomes row.1.operationId = some status := by
  have hid : row.1.operationId ∈ (old.contents env).batch.operationIds :=
    List.mem_map_of_mem (List.of_mem_zip hrow).1
  refine ⟨(hb.receipt r hr).answers.outcome hid,fun status ho hs => ?_⟩
  exact hk.terminal r hr _ (mem_of_outcomeOf ho) hs

theorem Acknowledged.unresolved
    (hk : Acknowledged env id input reconciled finishAt s c old) (hb : BatchInv env mode runId old)
    (hrow : row ∈ old.delivered env)
    (h : outcomeOf input.outcomes row.1.operationId = some .staged ∨ fresh old.receiptData input row = true) :
    unresolved old.receiptData row = true := by
  rcases hr : old.receiptData with _ | r
  · rfl
  · obtain ⟨⟨status,ho⟩,hkept⟩ := hk.known hb (Option.mem_def.mpr hr) hrow
    have hstaged : status = .staged := by
      by_contra hne
      have hnew := hkept status ho hne
      rcases h with h | h
      · rw [hnew,Option.some.injEq] at h
        exact hne h
      · simp only [fresh,hr,Option.bind_some,ho,hnew,Bool.and_eq_true,decide_eq_true_eq] at h
        exact h.2 h.1
    simp [ReverseEtl.unresolved,ho,hstaged]

theorem unresolved_ackReceipt :
    unresolved (some (ackReceipt old input time)) row =
      decide (outcomeOf input.outcomes row.1.operationId = some .staged) := rfl

theorem Acknowledged.retained
    (hk : Acknowledged env id input reconciled finishAt s c old) (hb : BatchInv env mode runId old) :
    (ackHead env old input time).retained env = (((old.delivered env).filter
      (ReverseEtl.unresolved old.receiptData)).filter fun row =>
        decide (outcomeOf input.outcomes row.1.operationId = some .staged)).map Prod.snd := by
  rw [BatchHead.retained,ackHead_delivered,ackHead_receiptData,List.filter_filter]
  congr 1
  apply List.filter_congr
  intro row hrow
  rw [unresolved_ackReceipt]
  by_cases hs : outcomeOf input.outcomes row.1.operationId = some .staged
  · simp [hs,hk.unresolved hb hrow (.inl hs)]
  · simp [hs]

theorem Acknowledged.fresh_le
    (hk : Acknowledged env id input reconciled finishAt s c old) (hb : BatchInv env mode runId old)
    (f : Delivered J → ℕ) : (((old.delivered env).filter (fresh old.receiptData input)).map f).sum ≤
      ((((old.delivered env).filter (ReverseEtl.unresolved old.receiptData)).filter fun row =>
        !decide (outcomeOf input.outcomes row.1.operationId = some .staged)).map f).sum := by
  rw [List.filter_filter]
  refine sum_filter_le fun row hrow hf => ?_
  have hu := hk.unresolved hb hrow (.inr hf)
  simp only [fresh,Bool.and_eq_true,decide_eq_true_eq] at hf
  simp [hu,hf.1]

theorem covers_of_accepted {l : LocalIndex J} (hl : Indexed env s.head l) (hr : s.head.replaced = false)
    (hk : Acknowledged env id input reconciled finishAt s c old)
    (hrow : row ∈ old.delivered env) {r : ReceiptData J} (hr' : r ∈ old.receiptData)
    (ho : outcomeOf r.result.outcomes row.1.operationId = some .accepted) :
    l.Covers (operationOf (ackHead env old input time) (old.contents env).batch.action
      (some (ackReceipt old input time)) row) := by
  intro e he
  have hop : operationOf old (old.contents env).batch.action old.receiptData row ∈ s.head.operations env :=
    List.mem_flatMap.mpr ⟨old,hk.mem,List.mem_map_of_mem hrow⟩
  have hacc : (operationOf old (old.contents env).batch.action old.receiptData row).Accepted :=
    operationOf_accepted.mpr ⟨r,hr',ho⟩
  have hw : (operationOf old (old.contents env).batch.action old.receiptData row).write e ∈
      writes (s.head.operations env) e.identityHash := ⟨_,hop,hacc,e,he,rfl,rfl⟩
  have hnot : ¬s.head.Pruned e.identityHash := fun hp => by simp [ArtifactHead.Pruned,hr] at hp
  rcases hl.members e.identityHash hnot with ⟨hempty,_⟩ | ⟨m,_,hm,hmax⟩
  · rw [hempty] at hw
    exact hw.elim
  · exact ⟨m,hm,by simpa [Operation.write,operationOf,Operation.sequence] using hmax _ hw⟩

theorem ack_weight {base next : ℕ} {l l' : LocalIndex J} {store : J}
    (hi : HeadInv env mode base next s.head) (hl : Indexed env s.head l) (hr : s.head.replaced = false)
    (hk : Acknowledged env id input reconciled finishAt s c old)
    (h : (ackDraft env old input store time).after l = .ok l') :
    l'.weight w ≤ l.weight w + if old.action = .upsert then
      (((old.delivered env).filter (fresh old.receiptData input)).map fun row => (row.2.map w).sum).sum
      else 0 := by
  have hb := hi.batches old hk.mem
  have hindex : ((ackHead env old input time).operations env).foldlM indexOperation l = .ok l' :=
    (index_eq (ackHead_batchInv time hb hk) l).symm.trans h
  have hle := indexOperations_weight (w := w) (fun op => decide ((old.receiptData.bind fun r =>
    outcomeOf r.result.outcomes op.id) ≠ some .accepted)) ?_ hindex
  · refine hle.trans (Nat.add_le_add_left (Nat.le_of_eq ?_) _)
    rw [ackHead_operations,List.filter_map,List.map_map]
    have hfilter : (old.delivered env).filter ((fun op => decide (op.Accepted ∧
        decide ((old.receiptData.bind fun r => outcomeOf r.result.outcomes op.id) ≠ some .accepted) = true)) ∘
        operationOf (ackHead env old input time) (old.contents env).batch.action
          (some (ackReceipt old input time))) = (old.delivered env).filter (fresh old.receiptData input) := by
      apply List.filter_congr
      intro row _
      rw [Bool.eq_iff_iff]
      simp only [Function.comp_apply,decide_eq_true_eq,operationOf_accepted,fresh,Bool.and_eq_true]
      simp [operationOf,Operation.id,ackReceipt,mergeReceipt]
    rw [hfilter,← hb.action]
    simp only [Function.comp_def,operationOf_load]
    split
    · rfl
    · simp
  · intro op hop ha hnew
    rw [ackHead_operations] at hop
    obtain ⟨row,hrow,rfl⟩ := List.mem_map.mp hop
    simp only [decide_eq_false_iff_not,not_not,Option.bind_eq_some_iff] at hnew
    obtain ⟨r,hr',ho⟩ := hnew
    exact covers_of_accepted hl hr hk hrow hr' ho

theorem ackHead_reserved (hb : BatchInv env mode runId old)
    (hu : old.action = .upsert) : (ackHead env old input time).Reserved env := by
  have ha := hb.action.trans hu
  constructor
  · exact if_pos ha
  · by_cases hn : (ackHead env old input time).retained env = []
    · rw [reservation,if_pos hn]
      exact if_neg fun hne => hne.2 hn
    · rw [reservation,if_neg hn]
      exact if_pos ⟨ha,hn⟩

theorem ackHead_unreserved (input : BatchResult J) (time : ℕ)
    (hb : BatchInv env mode runId old)
    (hu : old.action ≠ .upsert) : (ackHead env old input time).reservedEntries = 0 ∧
      (ackHead env old input time).reservedBytes = 0 := by
  rw [← hb.action] at hu
  exact ⟨if_neg hu,if_neg fun h => hu h.1⟩

theorem Gauge.spent_le {f : BatchHead J → ℕ} {cost : List (List (Effect J)) → ℕ} (hg : Gauge env w f cost)
    (time : ℕ) (hk : Acknowledged env id input reconciled finishAt s c old)
    (hb : BatchInv env mode runId old) (hres : old.Reserved env) (hu : old.action = .upsert) :
    f (ackHead env old input time) + (((old.delivered env).filter
      (fresh old.receiptData input)).map fun row => (row.2.map w).sum).sum ≤ f old := by
  have hfresh := hk.fresh_le hb fun row => (row.2.map w).sum
  have hsplit := hg.split (fun row => decide (outcomeOf input.outcomes row.1.operationId = some .staged))
    ((old.delivered env).filter (ReverseEtl.unresolved old.receiptData))
  rw [hg.held _ (ackHead_reserved hb hu),hg.held _ hres,hk.retained hb,BatchHead.retained]
  omega

theorem Gauge.ack {f : BatchHead J → ℕ} {cost : List (List (Effect J)) → ℕ} (hg : Gauge env w f cost)
    {base next limit : ℕ} {l l' : LocalIndex J} {store : J}
    (hi : HeadInv env mode base next s.head) (hl : Indexed env s.head l) (hr : s.head.replaced = false)
    (hk : Acknowledged env id input reconciled finishAt s c old) (hres : old.Reserves env)
    (hs : old.status ≠ .cancelled) (h : (ackDraft env old input store time).after l = .ok l')
    (hfree : old.action ≠ .upsert → f (ackHead env old input time) = 0)
    (hw : l.weight w + (s.head.batches.map f).sum ≤ limit) :
    l'.weight w + (((ackDraft env old input store time).edit.apply s.head).batches.map f).sum ≤ limit := by
  have hweight := ack_weight (w := w) hi hl hr hk h
  have hsum := sum_replace (ackHead env old input time) hi.batchIds hk.mem f
  change l'.weight w + ((s.head.batches.map fun row => if row.id = old.id then
    ackHead env old input time else row).map f).sum ≤ _
  by_cases hu : old.action = .upsert
  · have hle := hg.spent_le time hk (hi.batches old hk.mem) (hres hs hu) hu
    rw [if_pos hu] at hweight
    omega
  · have hzero := hfree hu
    rw [if_neg hu] at hweight
    omega

end Acknowledged

section Capacity

variable {J : Type} {env : Env J} {h h' : ArtifactHead J} {l l' : LocalIndex J}

structure Within (env : Env J) (h : ArtifactHead J) (l : LocalIndex J) : Prop where
  entries : l.entries + (h.batches.map BatchHead.reservedEntries).sum ≤ env.limits.snapshotEntries
  bytes : l.bytes env + (h.batches.map BatchHead.reservedBytes).sum ≤ env.limits.snapshotBytes

theorem within_iff : Within env h l ↔
    l.weight (fun _ => 1) + (h.batches.map BatchHead.reservedEntries).sum ≤ env.limits.snapshotEntries ∧
    l.weight env.effectBytes + (h.batches.map BatchHead.reservedBytes).sum ≤ env.limits.snapshotBytes := by
  rw [← LocalIndex.entries_eq,← LocalIndex.bytes_eq]
  exact ⟨fun hw => ⟨hw.entries,hw.bytes⟩,fun hw => ⟨hw.1,hw.2⟩⟩

theorem Within.mono (hw : Within env h l) (hl : ∀ w, l'.weight w ≤ l.weight w)
    (he : (h'.batches.map BatchHead.reservedEntries).sum ≤ (h.batches.map BatchHead.reservedEntries).sum)
    (hb : (h'.batches.map BatchHead.reservedBytes).sum ≤ (h.batches.map BatchHead.reservedBytes).sum) :
    Within env h' l' := by
  have hent := hl fun _ => 1
  have hbyt := hl env.effectBytes
  rw [within_iff] at hw ⊢
  omega

theorem Within.map (hw : Within env h l) {g : BatchHead J → BatchHead J} (hb : h'.batches = h.batches.map g)
    (hg : ∀ b, (g b).reservedEntries ≤ b.reservedEntries ∧ (g b).reservedBytes ≤ b.reservedBytes) :
    Within env h' l := by
  refine hw.mono (fun _ => le_rfl) ?_ ?_
  · rw [hb,List.map_map]
    exact List.sum_le_sum fun b _ => (hg b).1
  · rw [hb,List.map_map]
    exact List.sum_le_sum fun b _ => (hg b).2

theorem Within.of_members (hw : Within env h l) (hm : l'.members = l.members) : Within env h l' :=
  hw.mono (fun w => by rw [LocalIndex.weight,hm,LocalIndex.weight]) le_rfl le_rfl

theorem BatchHead.cancel_reserved (b : BatchHead J) : b.cancel.reservedEntries ≤ b.reservedEntries ∧
    b.cancel.reservedBytes ≤ b.reservedBytes := by
  unfold BatchHead.cancel
  split
  · exact ⟨Nat.zero_le _,Nat.zero_le _⟩
  · exact ⟨le_rfl,le_rfl⟩

section Ack

variable {s : Session J} {c : ControlRow J} {id : String} {input : BatchResult J} {store : J}
  {reconciled : Bool} {finishAt : Option ℕ} {old : BatchHead J} {time : ℕ}

theorem ack_within {mode : Mode} {base next : ℕ} (hi : HeadInv env mode base next s.head)
    (hl : Indexed env s.head l) (hr : s.head.replaced = false)
    (hk : Acknowledged env id input reconciled finishAt s c old) (hres : old.Reserves env)
    (hs : old.status ≠ .cancelled) (h : (ackDraft env old input store time).after l = .ok l')
    (hw : Within env s.head l) : Within env ((ackDraft env old input store time).edit.apply s.head) l' := by
  have hfree := ackHead_unreserved input time (hi.batches old hk.mem)
  rw [within_iff] at hw ⊢
  exact ⟨Gauge.entries.ack hi hl hr hk hres hs h (fun hu => (hfree hu).1) hw.1,
    Gauge.bytes.ack hi hl hr hk hres hs h (fun hu => (hfree hu).2) hw.2⟩

end Ack

section Prepare

variable [DecidableEq J] {batch : PreparedBatch J} {store : J} {independent : Bool} {s : Session J}
  {c : ControlRow J} {d : Draft J} {projected : List (List (Effect J))}

theorem prepare_budget (hp : prepare env batch store independent s c = .ok d) :
    ∃ head, d.edit = .append head ∧
      s.localIndex.entries + (s.head.batches.map BatchHead.reservedEntries).sum + head.reservedEntries ≤
        env.limits.snapshotEntries ∧
      s.localIndex.bytes env + (s.head.batches.map BatchHead.reservedBytes).sum + head.reservedBytes ≤
        env.limits.snapshotBytes := by
  simp only [prepare,bind_eq_ok,require_eq_ok,onlyIf_eq_ok,pure_eq_ok,encodeJson] at hp
  obtain ⟨_,_,_,_,_,_,_,_,_,_,projected,_,_,_,checked,_,_,_,_,⟨hent,hbyt⟩,_,_,_,_,_,_,rfl⟩ := hp
  exact ⟨_,rfl,hent,hbyt⟩

theorem Prepared.reserved (hp : Prepared env batch store independent s c projected) :
    (prepareHead env s.scope batch projected (c.nextSequence + batch.records.length)).Reserves env := by
  intro _ hu
  have hdel : (prepareHead env s.scope batch projected
      (c.nextSequence + batch.records.length)).retained env = projected := by
    rw [BatchHead.retained,BatchHead.delivered,hp.contents,
      show (prepareHead env s.scope batch projected (c.nextSequence + batch.records.length)).receiptData = none
        from rfl,show (unresolved (none : Option (ReceiptData J))) = fun _ => true from rfl,
      List.filter_true]
    exact List.map_snd_zip hp.length.le
  have hne : projected ≠ [] := by
    intro hnil
    have := hp.length
    have := hp.nonempty
    simp_all
  constructor
  · rw [hdel]
    exact if_pos hu
  · rw [hdel,reservation,if_neg hne]
    exact if_pos hu

theorem Prepared.within (hp : Prepared env batch store independent s c projected)
    (hbudget : prepare env batch store independent s c =
      .ok (prepareDraft env batch store s c projected))
    (h : (prepareDraft env batch store s c projected).after s.localIndex = .ok l') :
    Within env ((prepareDraft env batch store s c projected).edit.apply s.head) l' := by
  obtain ⟨head,hedit,hent,hbyt⟩ := prepare_budget hbudget
  have hindex := index_eq hp.batchInv s.localIndex
  rw [hp.contents] at hindex
  replace hindex := hindex.symm.trans h
  have hweight : ∀ w, l'.weight w ≤ s.localIndex.weight w := by
    intro w
    have hnone : ∀ op ∈ (prepareHead env s.scope batch projected
        (c.nextSequence + batch.records.length)).operations env, ¬op.Accepted := by
      intro op hop ha
      obtain ⟨row,_,rfl⟩ := List.mem_map.mp hop
      obtain ⟨r,hr,_⟩ := operationOf_accepted.mp ha
      cases hr
    have hle := indexOperations_weight (w := w) (fun _ => true)
      (fun op hop ha => absurd ha (hnone op hop)) hindex
    rw [List.filter_eq_nil_iff.mpr (fun op hop => by simp [hnone op hop])] at hle
    exact hle
  have hwe := hweight fun _ => 1
  have hwb := hweight env.effectBytes
  rw [LocalIndex.entries_eq] at hent
  rw [LocalIndex.bytes_eq] at hbyt
  rw [hedit,within_iff]
  simp only [HeadEdit.apply,List.map_append,List.sum_append,List.map_cons,List.map_nil,List.sum_cons,
    List.sum_nil]
  omega

end Prepare

structure Roomy (env : Env J) (phase : Phase) (h : ArtifactHead J) : Prop where
  reserves : ∀ b ∈ h.batches, b.Reserves env
  uncancelled : phase = .aborted ∨ ∀ b ∈ h.batches, b.status ≠ .cancelled
  within : ∀ l, Indexed env h l → Within env h l

theorem PhaseMove.aborted {p q : Phase} (h : PhaseMove p q) (hp : p = .aborted) : q = .aborted := by
  cases h with
  | same => exact hp
  | prepareAbort h | finishPending h | finishResolving h => rcases h with rfl | rfl <;> cases hp
  | _ => cases hp

theorem Move.aborted [DecidableEq J] {v : View J} {d : Draft J} (hm : Move env v d)
    (hp : v.row.phase = .aborted) : (d.row v).phase = .aborted := by
  have absurdly : ∀ {p : Phase}, v.row.phase = p → p ≠ .aborted → (d.row v).phase = .aborted :=
    fun hq hne => absurd (hq.symm.trans hp) hne
  cases hm with
  | control only phase => exact phase.aborted hp
  | prepareFinish h =>
    simp only [ReverseEtl.prepareFinish,bind_eq_ok,require_eq_ok] at h
    obtain ⟨_,⟨_,_,hphase⟩,_⟩ := h
    rcases hphase with hq | hq <;> exact absurdly hq (by simp)
  | pendingFinish only native phase target => rcases phase with hq | hq <;> exact absurdly hq (by simp)
  | acceptFinish phase h => exact absurdly phase (by simp)
  | prepare h =>
    obtain ⟨_,hprep,_⟩ := prepare_ok h
    exact absurdly hprep.phase (by simp)
  | markUnknown h => exact absurdly (markUnknown_ok h).1 (by simp)
  | acknowledge h =>
    obtain ⟨_,hk,_⟩ := ack_ok h
    rcases hk.phase with hq | hq | hq <;> exact absurdly hq (by simp)
  | acknowledgeAbort h =>
    simp only [ReverseEtl.acknowledgeAbort,bind_eq_ok,pure_eq_ok] at h
    obtain ⟨_,_,rfl⟩ := h
    rfl
  | startSnapshot pending mode phase => rcases phase with hq | hq <;> exact absurdly hq (by simp)
  | sealSnapshot h => exact absurdly (sealSnapshot_ok h).1 (by simp)
  | commitCheckpoint h =>
    have hphase := (commitCheckpoint_ok h).1.phase
    split at hphase
    · exact absurdly hphase (by simp)
    · exact absurdly hphase.1 (by simp)

section Stable

variable [DecidableEq J] {v : View J} {d : Draft J}

theorem Roomy.of_after (hv : ViewInv env v) (hm : Move env v d)
    (hres : ∀ b ∈ (d.edit.apply v.session.head).batches, b.Reserves env)
    (hun : (d.row v).phase = .aborted ∨ ∀ b ∈ (d.edit.apply v.session.head).batches, b.status ≠ .cancelled)
    (hw : ∀ l, d.after v.session.localIndex = .ok l → Within env (d.edit.apply v.session.head) l) :
    Roomy env (d.row v).phase (d.edit.apply v.session.head) := by
  refine ⟨hres,hun,fun l hl => ?_⟩
  obtain ⟨l',hl',hnext⟩ := hm.preserves hv
  have hinv := hnext v.saved
  exact (hw l' hl').of_members (hl.unique hinv.run.head hinv.indexed).members

theorem Roomy.move (hv : ViewInv env v) (hm : Move env v d) (hr : Roomy env v.row.phase v.session.head) :
    Roomy env (d.row v).phase (d.edit.apply v.session.head) := by
  have hwithin := hr.within _ hv.indexed
  have hun : (d.row v).phase = .aborted ∨ ∀ b ∈ v.session.head.batches, b.status ≠ .cancelled :=
    hr.uncancelled.imp_left hm.aborted
  cases hm.kind hv with
  | quiet batches after =>
    refine .of_after hv hm (batches ▸ hr.reserves) (batches ▸ hun) fun l hl => ?_
    have hsame : ∀ f : BatchHead J → ℕ, ((d.edit.apply v.session.head).batches.map f).sum ≤
        (v.session.head.batches.map f).sum := fun f => by rw [batches]
    rcases after v.session.localIndex with h | h
    · rw [h,Except.ok.injEq] at hl
      subst hl
      exact hwithin.mono (fun _ => le_rfl) (hsame _) (hsame _)
    · rw [h,Except.ok.injEq] at hl
      subst hl
      exact hwithin.mono (fun _ => applyReplacement_weight) (hsame _) (hsame _)
  | marked id prepared edit after =>
    have hbatches : (d.edit.apply v.session.head).batches = v.session.head.batches.map fun row =>
        if row.id = id then { row with status := .unknown } else row := by
      rw [edit]
      rfl
    refine .of_after hv hm ?_ ?_ fun l hl => ?_
    · intro b hb
      rw [hbatches] at hb
      obtain ⟨a,ha,rfl⟩ := List.mem_map.mp hb
      split
      · next he =>
        intro _ hu
        have hres := hr.reserves a ha (by simp [prepared a ha he]) hu
        exact ⟨hres.entries,hres.bytes⟩
      · exact hr.reserves a ha
    · refine hun.imp_right fun hnone b hb => ?_
      rw [hbatches] at hb
      obtain ⟨a,ha,rfl⟩ := List.mem_map.mp hb
      split
      · simp
      · exact hnone a ha
    · rw [after,Except.ok.injEq] at hl
      subst hl
      refine hwithin.map hbatches fun b => ?_
      split <;> exact ⟨le_rfl,le_rfl⟩
  | cancelled edit phase after =>
    have hbatches : (d.edit.apply v.session.head).batches = v.session.head.batches.map BatchHead.cancel := by
      rw [edit]
      rfl
    refine .of_after hv hm ?_ (.inl (by rw [Draft.row_phase,phase]; rfl)) fun l hl => ?_
    · intro b hb
      rw [hbatches] at hb
      obtain ⟨a,ha,rfl⟩ := List.mem_map.mp hb
      unfold BatchHead.cancel
      split
      · exact fun hne => absurd rfl hne
      · exact hr.reserves a ha
    · rw [after,Except.ok.injEq] at hl
      subst hl
      exact hwithin.map hbatches BatchHead.cancel_reserved
  | prepared batch store independent h =>
    obtain ⟨projected,hp,rfl⟩ := prepare_ok h
    refine .of_after hv hm ?_ ?_ fun l hl => hp.within h hl
    · intro b hb
      rcases List.mem_append.mp hb with hb | hb
      · exact hr.reserves b hb
      · rw [List.mem_singleton.mp hb]
        exact hp.reserved
    · refine hun.imp_right fun hnone b hb => ?_
      rcases List.mem_append.mp hb with hb | hb
      · exact hnone b hb
      · rw [List.mem_singleton.mp hb]
        simp [prepareHead]
  | acknowledged id input store reconciled finishAt now h =>
    obtain ⟨old,hk,rfl⟩ := ack_ok h
    have hactive : v.row.phase ≠ .aborted := by
      rcases hk.phase with hq | hq | hq <;> simp [hq]
    have hnone := hr.uncancelled.resolve_left hactive
    have hrep : v.session.head.replaced = false := by
      apply hv.unreplaced <;> intro hp <;> simpa [hp] using hk.phase
    refine .of_after hv hm ?_ (.inr ?_) fun l hl => ?_
    · intro b hb
      obtain ⟨a,ha,rfl⟩ := List.mem_map.mp hb
      split
      · exact fun _ hu => ackHead_reserved (hv.run.head.batches old hk.mem) hu
      · exact hr.reserves a ha
    · intro b hb
      obtain ⟨a,ha,rfl⟩ := List.mem_map.mp hb
      split
      · simp [ackHead,acknowledgedHead]
      · exact hnone a ha
    · exact ack_within hv.run.head hv.indexed hrep hk (hr.reserves old hk.mem) (hnone old hk.mem) hl hwithin

theorem stable_roomy : Stable env fun row => ∃ h, row.artifactHead = some h ∧ Roomy env row.phase h where
  move := by
    rintro v d hv hm ⟨h,hh,hr⟩
    rw [hv.head,Option.some.injEq] at hh
    subst hh
    exact ⟨_,rfl,hr.move hv hm⟩
  reopen := by
    rintro run base store row ⟨h,hh,hr⟩
    exact ⟨h,hh,by simpa [reopened] using hr⟩

variable {run : RunInput} {c : Cell J}

omit [DecidableEq J] in
theorem ViewInv.roomy (hv : ViewInv env v) (hbatches : v.session.head.batches = [])
    (hent : v.session.localIndex.entries ≤ env.limits.snapshotEntries)
    (hbytes : v.session.localIndex.bytes env ≤ env.limits.snapshotBytes) :
    Roomy env v.row.phase v.session.head := by
  refine ⟨by simp [hbatches],by simp [hbatches],fun l hl => ?_⟩
  have hroom : Within env v.session.head v.session.localIndex :=
    ⟨by simpa [hbatches] using hent,by simpa [hbatches] using hbytes⟩
  exact hroom.of_members (hl.unique hv.run.head hv.indexed).members

theorem membership_within (hr : Reached env run c) (hopen : c.session.broken = false)
    (hfirst : c.session.head.batches = [])
    (hent : c.session.localIndex.entries ≤ env.limits.snapshotEntries)
    (hbytes : c.session.localIndex.bytes env ≤ env.limits.snapshotBytes)
    {xs : List (Call J × List Reply)} (hx : ∀ x ∈ xs, x.1.For run) :
    ∃ row h l, (c.calls env xs).db.control c.session.scope.key = some row ∧ row.artifactHead = some h ∧
      restore env row.mode h = .ok l ∧ Within env h l ∧
      ((c.calls env xs).session.broken = false → (c.calls env xs).row = some row →
        Within env (c.calls env xs).session.head (c.calls env xs).session.localIndex) := by
  obtain ⟨row,hrow,hv⟩ := hr.inv.live hopen
  have hstart : Owned env (fun row => ∃ h, row.artifactHead = some h ∧ Roomy env row.phase h) row :=
    ⟨⟨_,hv.head,hv.run⟩,_,hv.head,hv.roomy hfirst hent hbytes⟩
  have hk := hr.inv.calls hx
  obtain ⟨row',hrow',⟨h,hh,hrun⟩,h',hh',hroomy⟩ := hk.follows.owned stable_roomy hrow hstart
  rw [hh,Option.some.injEq] at hh'
  subst hh'
  obtain ⟨l,hl,hidx⟩ := restore_indexed hrun.head
  refine ⟨row',h,l,hrow',hh,hl,hroomy.within l hidx,fun hlive hlook => ?_⟩
  have hv' := hk.inv.view hlive hlook
  obtain rfl : (c.calls env xs).session.head = h := Option.some.inj (hv'.head.symm.trans hh)
  exact hroomy.within _ hv'.indexed

end Stable

end Capacity

theorem membership_within_successor :
    openedCell.session.localIndex.entries = 2 ∧ stagedCell.session.localIndex.entries = 2 ∧
    stagedCell.session.head.batches.map BatchHead.reservedEntries = [1,0,0] ∧
    ∃ row h l, stagedCell.db.control openedCell.session.scope.key = some row ∧ row.artifactHead = some h ∧
      restore (plainEnv defaultLimits) row.mode h = .ok l ∧ Within (plainEnv defaultLimits) h l := by
  have hrun : openedCell.session.localIndex.entries = 2 ∧ stagedCell.session.localIndex.entries = 2 ∧
      stagedCell.session.head.batches.map BatchHead.reservedEntries = [1,0,0] ∧
      openedCell.session.broken = false ∧ openedCell.session.head.batches.length = 0 ∧
      openedCell.session.localIndex.bytes (plainEnv defaultLimits) ≤ 1000 := by decide +kernel
  obtain ⟨hent,hstaged,hreserved,hlive,hbatches,hbytes⟩ := hrun
  obtain ⟨row,h,l,hrow,hh,hl,hw,-⟩ := membership_within openedCell_reached hlive
    (List.length_eq_zero_iff.mp hbatches) (hent ▸ by decide) (hbytes.trans (by decide)) secondCalls_for
  exact ⟨hent,hstaged,hreserved,row,h,l,hrow,hh,hl,hw⟩

end Jitsu.ReverseEtl
