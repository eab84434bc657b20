import Jitsu.ReverseEtl.Plain

namespace Jitsu.ReverseEtl
open Checked Std Program Program.Prog

section Receipt

variable {J : Type}

structure ReceiptData.Grown (r r' : ReceiptData J) : Prop where
  terminal : ∀ id status, outcomeOf r.result.outcomes id = some status → status ≠ .staged →
    outcomeOf r'.result.outcomes id = some status ∧ r'.acceptedAt.lookup id = r.acceptedAt.lookup id
  known : ∀ id, (outcomeOf r'.result.outcomes id).isSome = (outcomeOf r.result.outcomes id).isSome
  metadata : (∃ id, outcomeOf r'.result.outcomes id = some .staged) →
    r'.result.remoteJobIds = r.result.remoteJobIds ∧
      r'.result.providerCheckpoint = r.result.providerCheckpoint

namespace ReceiptData.Grown

variable {r r' r'' : ReceiptData J}

theorem refl (r : ReceiptData J) : r.Grown r where
  terminal := fun _ _ h _ => ⟨h,rfl⟩
  known := fun _ => rfl
  metadata := fun _ => ⟨rfl,rfl⟩

theorem staged (h : r.Grown r') {id : String} (hs : outcomeOf r'.result.outcomes id = some .staged) :
    outcomeOf r.result.outcomes id = some .staged := by
  obtain ⟨status,ho⟩ : ∃ status, outcomeOf r.result.outcomes id = some status := by
    rw [← Option.isSome_iff_exists,← h.known,hs]
    rfl
  by_cases hst : status = .staged
  · rw [ho,hst]
  · rw [(h.terminal id status ho hst).1,Option.some.injEq] at hs
    exact absurd hs hst

theorem trans (h₁ : r.Grown r') (h₂ : r'.Grown r'') : r.Grown r'' where
  terminal := by
    intro id status ho hs
    obtain ⟨ho',ha⟩ := h₁.terminal id status ho hs
    obtain ⟨ho'',ha'⟩ := h₂.terminal id status ho' hs
    exact ⟨ho'',ha'.trans ha⟩
  known := fun id => (h₂.known id).trans (h₁.known id)
  metadata := by
    rintro ⟨id,hs⟩
    obtain ⟨hr,hp⟩ := h₂.metadata ⟨id,hs⟩
    obtain ⟨hr',hp'⟩ := h₁.metadata ⟨id,h₂.staged hs⟩
    exact ⟨hr.trans hr',hp.trans hp'⟩

end ReceiptData.Grown

theorem recordAcceptance_lookup_ne {now : ℕ} {acc : List (String × ℕ)} {row : RecordOutcome} {j : String}
    (h : row.status = .accepted → row.operationId ≠ j) :
    (recordAcceptance now acc row).lookup j = acc.lookup j := by
  unfold recordAcceptance
  split
  · rename_i ha
    have hne : (j == row.operationId) = false := by simpa using (h ha.1).symm
    rw [List.lookup_append,List.lookup_cons,hne]
    simp
  · rfl

theorem mergeAcceptance_lookup_ne {now : ℕ} {rows : List RecordOutcome} {acc : List (String × ℕ)} {j : String}
    (h : ∀ row ∈ rows, row.status = .accepted → row.operationId ≠ j) :
    (rows.foldl (recordAcceptance now) acc).lookup j = acc.lookup j := by
  induction rows generalizing acc with
  | nil => rfl
  | cons row rows ih =>
    rw [List.foldl_cons,ih fun r hr => h r (List.mem_cons_of_mem _ hr)]
    exact recordAcceptance_lookup_ne (h row (by simp))

theorem Answers.isSome {batch : PreparedBatch J} {result : BatchResult J} (h : Answers batch result)
    (id : String) : (outcomeOf result.outcomes id).isSome = decide (id ∈ batch.operationIds) := by
  by_cases hid : id ∈ batch.operationIds
  · obtain ⟨status,ho⟩ := h.outcome hid
    simp [ho,hid]
  · rcases ho : outcomeOf result.outcomes id with _ | status
    · simp [hid]
    · exact absurd (h.known _ (mem_of_outcomeOf ho)) hid

variable [DecidableEq J] {env : Env J} {s : Session J} {c : ControlRow J} {id : String} {input : BatchResult J}
  {store : J} {reconciled : Bool} {finishAt : Option ℕ} {now : ℕ} {d : Draft J} {old : BatchHead J}

theorem ack_metadata (h : ack env id input store reconciled finishAt now s c = .ok (some d)) :
    ∃ old, old ∈ s.head.batches ∧ old.id = id ∧ ∀ p ∈ old.receiptData, 0 < input.count (· = .staged) →
      p.result.remoteJobIds = input.remoteJobIds ∧
        p.result.providerCheckpoint = input.providerCheckpoint := by
  simp only [ack,bind_eq_ok,require_eq_ok] at h
  obtain ⟨_,_,old,hold,data,_,result,hres,_,_,h⟩ := h
  obtain ⟨rfl,_⟩ := validateBatchResult_eq_ok.mp hres
  obtain ⟨hmem,hid⟩ := find_ok hold
  split at h
  · simp at h
  · simp only [bind_eq_ok,require_eq_ok] at h
    obtain ⟨_,hmeta,_⟩ := h
    exact ⟨old,hmem,hid,hmeta⟩

theorem ackReceipt_grown {mode : Mode} {base next time : ℕ} (hi : HeadInv env mode base next s.head)
    (hk : Acknowledged env id input reconciled finishAt s c old)
    (h : ack env id input store reconciled finishAt now s c = .ok (some d)) {r : ReceiptData J}
    (hr : r ∈ old.receiptData) : r.Grown (ackReceipt old input time) := by
  have hinv := (hi.batches old hk.mem).receipt r hr
  have hmerge : (ackReceipt old input time).acceptedAt =
      input.outcomes.foldl (recordAcceptance time) r.acceptedAt := by
    simp [ackReceipt,mergeReceipt,Option.mem_def.mp hr]
  refine ⟨fun j status ho hs => ?_,fun j => ?_,?_⟩
  · have hkept := hk.terminal r hr _ (mem_of_outcomeOf ho) hs
    refine ⟨hkept,?_⟩
    rw [hmerge]
    by_cases ha : status = .accepted
    · subst ha
      obtain ⟨t,ht⟩ := Option.isSome_iff_exists.mp (hinv.dated _ (mem_of_outcomeOf ho) rfl)
      rw [mergeAcceptance_lookup ht,ht]
    · apply mergeAcceptance_lookup_ne
      intro row hrow hacc he
      have := outcomeOf_of_mem hk.answers.outcomeIds hrow
      rw [he,show outcomeOf input.outcomes j = some status from hkept,hacc,Option.some.injEq] at this
      exact ha this
  · rw [hinv.answers.isSome]
    exact hk.answers.isSome j
  · rintro ⟨j,hs⟩
    obtain ⟨old',hmem,hid,hmeta⟩ := ack_metadata h
    have hsame : old' = old := eq_of_batch_id hi hmem hk.mem (hid.trans hk.id.symm)
    subst hsame
    have hpos : 0 < input.count (· = .staged) := by
      rw [BatchResult.count,List.countP_pos_iff]
      exact ⟨_,mem_of_outcomeOf hs,by simp⟩
    obtain ⟨hj,hp⟩ := hmeta r hr hpos
    exact ⟨hj.symm,hp.symm⟩

end Receipt

section Moves

variable {J : Type} [DecidableEq J] {env : Env J} {v : View J} {d : Draft J}

inductive MoveKind (env : Env J) (v : View J) (d : Draft J) : Prop where
  | quiet (batches : (d.edit.apply v.session.head).batches = v.session.head.batches)
      (after : ∀ l, d.after l = .ok l ∨ d.after l = .ok l.applyReplacement) : MoveKind env v d
  | marked (id : String)
      (prepared : ∀ b ∈ v.session.head.batches, b.id = id → b.status = .prepared)
      (edit : d.edit = .markUnknown id) (after : ∀ l, d.after l = .ok l) : MoveKind env v d
  | cancelled (edit : d.edit = .cancelStaged) (phase : d.changes.phase = some .aborted)
      (after : ∀ l, d.after l = .ok l) : MoveKind env v d
  | prepared (batch : PreparedBatch J) (store : J) (independent : Bool)
      (h : prepare env batch store independent v.session v.row = .ok d) : MoveKind env v d
  | acknowledged (id : String) (input : BatchResult J) (store : J) (reconciled : Bool) (finishAt : Option ℕ)
      (now : ℕ) (h : ack env id input store reconciled finishAt now v.session v.row = .ok (some d)) :
      MoveKind env v d

theorem Move.kind (hv : ViewInv env v) (hm : Move env v d) : MoveKind env v d := by
  cases hm with
  | control only phase => exact .quiet rfl fun l => .inl rfl
  | prepareFinish h =>
    simp only [ReverseEtl.prepareFinish,bind_eq_ok,pure_eq_ok] at h
    obtain ⟨_,_,_,_,_,_,_,_,rfl⟩ := h
    refine .quiet ?_ fun l => .inl rfl
    split <;> rfl
  | pendingFinish only native phase target => exact .quiet rfl fun l => .inl rfl
  | acceptFinish phase h =>
    simp only [ReverseEtl.acceptFinish,bind_eq_ok,pure_eq_ok] at h
    obtain ⟨_,_,rfl⟩ := h
    refine .quiet ?_ fun l => ?_
    · split <;> rfl
    · split
      · exact .inr rfl
      · exact .inl rfl
  | prepare h => exact .prepared _ _ _ h
  | markUnknown h =>
    obtain ⟨_,⟨old,hmem,hid,hs⟩,rfl⟩ := markUnknown_ok h
    refine .marked _ (fun b hb he => ?_) rfl fun l => rfl
    rwa [eq_of_batch_id hv.run.head hb hmem (he.trans hid.symm)]
  | acknowledge h => exact .acknowledged _ _ _ _ _ _ h
  | acknowledgeAbort h =>
    simp only [ReverseEtl.acknowledgeAbort,bind_eq_ok,pure_eq_ok] at h
    obtain ⟨_,_,rfl⟩ := h
    exact .cancelled rfl rfl fun l => rfl
  | startSnapshot pending mode phase => exact .quiet rfl fun l => .inl rfl
  | sealSnapshot h =>
    obtain ⟨_,_,_,_,rfl,_⟩ := sealSnapshot_ok h
    exact .quiet rfl fun l => .inl rfl
  | commitCheckpoint h =>
    obtain ⟨_,rfl⟩ := commitCheckpoint_ok h
    exact .quiet rfl fun l => .inl rfl

def ArtifactHead.ReceiptsGrown (h h' : ArtifactHead J) : Prop :=
  ∀ b ∈ h.batches, ∃ b' ∈ h'.batches, b'.id = b.id ∧ ∀ r ∈ b.receiptData, ∃ r' ∈ b'.receiptData, r.Grown r'

omit [DecidableEq J] in
theorem ArtifactHead.ReceiptsGrown.trans {h h' h'' : ArtifactHead J} (h₁ : h.ReceiptsGrown h')
    (h₂ : h'.ReceiptsGrown h'') : h.ReceiptsGrown h'' := by
  intro b hb
  obtain ⟨b',hb',hid,hr⟩ := h₁ b hb
  obtain ⟨b'',hb'',hid',hr'⟩ := h₂ b' hb'
  refine ⟨b'',hb'',hid'.trans hid,fun r hmem => ?_⟩
  obtain ⟨r',hmem',hg⟩ := hr r hmem
  obtain ⟨r'',hmem'',hg'⟩ := hr' r' hmem'
  exact ⟨r'',hmem'',hg.trans hg'⟩

omit [DecidableEq J] in
theorem ArtifactHead.ReceiptsGrown.map {h : ArtifactHead J} {f : BatchHead J → BatchHead J}
    (hf : ∀ b ∈ h.batches, (f b).id = b.id ∧ ∀ r ∈ b.receiptData, ∃ r' ∈ (f b).receiptData, r.Grown r') :
    h.ReceiptsGrown { h with batches := h.batches.map f } :=
  fun b hb => ⟨f b,List.mem_map_of_mem hb,hf b hb⟩

theorem Move.receiptsGrown (hv : ViewInv env v) (hm : Move env v d) :
    v.session.head.ReceiptsGrown (d.edit.apply v.session.head) := by
  have same : ∀ b : BatchHead J, ∀ r ∈ b.receiptData, ∃ r' ∈ b.receiptData, r.Grown r' :=
    fun b r hr => ⟨r,hr,.refl r⟩
  cases hm.kind hv with
  | quiet batches after => exact fun b hb => ⟨b,batches ▸ hb,rfl,same b⟩
  | marked id prepared edit after =>
    rw [edit]
    refine .map fun b hb => ?_
    split <;> exact ⟨rfl,same b⟩
  | cancelled edit phase after =>
    rw [edit]
    refine .map fun b hb => ?_
    obtain ⟨_,_,hid,_,hr⟩ := cancel_frame b
    refine ⟨hid,?_⟩
    rw [BatchHead.receiptData,BatchHead.receiptData,hr]
    exact same b
  | prepared batch store independent h =>
    obtain ⟨projected,_,rfl⟩ := prepare_ok h
    exact fun b hb => ⟨b,List.mem_append_left _ hb,rfl,same b⟩
  | acknowledged id input store reconciled finishAt now h =>
    obtain ⟨old,hk,rfl⟩ := ack_ok h
    refine .map fun b hb => ?_
    split
    · rename_i he
      rw [eq_of_batch_id hv.run.head hb hk.mem he]
      exact ⟨rfl,fun r hr => ⟨_,rfl,ackReceipt_grown hv.run.head hk h hr⟩⟩
    · exact ⟨rfl,same b⟩

theorem stable_receiptsGrown (h₀ : ArtifactHead J) :
    Stable env fun row => ∃ h, row.artifactHead = some h ∧ h₀.ReceiptsGrown h where
  move := by
    rintro v d hv hm ⟨h,hh,hg⟩
    rw [hv.head,Option.some.injEq] at hh
    subst hh
    exact ⟨_,rfl,hg.trans (hm.receiptsGrown hv)⟩
  reopen := fun _ _ _ _ h => h

end Moves

section Runs

variable {J : Type}

def Cell.batches (c : Cell J) : List (BatchHead J) :=
  (c.row.bind ControlRow.artifactHead).elim [] ArtifactHead.batches

variable [DecidableEq J] {env : Env J} {run : RunInput} {c : Cell J}
  {row : ControlRow J} {h : ArtifactHead J} {d : Draft J}

def Untouched (c : Cell J) (e : Failure) (c' : Cell J) : Prop := e = commitLost ∨ c' = c ∨ c' = c.markBroken

variable {E : Failure → Cell J → Prop}

omit [DecidableEq J] in
theorem abandon_raises {e : Failure} (h : E e c.markBroken) :
    Raises (· = c) (Op.abandon e) E :=
  raises_modify_bind (raises_throw h)

theorem transact_raises {s : Session J} {t : Transport} :
    Raises (· = c) (Op.transact env s d t row) (Untouched c) := by
  apply raises_get_bind
  split
  · exact raises_throw (.inr (.inl rfl))
  · exact abandon_raises (.inr (.inr rfl))
  · apply raises_modify_bind
    split
    · exact abandon_raises (.inl rfl)
    · exact raises_pure

theorem commit_raises {s : Session J} : Raises (· = c) (Op.commit env s d) (Untouched c) := by
  have hsame : ∀ e, Untouched c e c := fun _ => .inr (.inl rfl)
  refine raises_ask_bind fun upload => raises_lift_bind (fun e _ => hsame e) fun _ _ => ?_
  refine raises_lift_bind (fun e _ => hsame e) fun _ _ => raises_ask_bind fun r => ?_
  split
  · exact abandon_raises (.inr (.inr rfl))
  · apply raises_get_bind
    split
    · exact abandon_raises (.inr (.inr rfl))
    · exact transact_raises

theorem publish_raises (hu : Usable env run c row) (hm : Move env (c.view row) d) :
    Raises (· = c) (Op.publish env d) (Untouched c) := by
  refine raises_bind (Q := fun _ s => s = c) (F := fun _ => True) ?_ ?_ fun _ => raises_get_bind ?_
  · exact spec_get_bind (spec_lift (fun _ _ _ h => h) fun _ _ => trivial)
  · exact raises_get_bind (raises_lift fun e _ => .inr (.inl rfl))
  refine raises_bind commit_spec commit_raises fun _ rs c' hc => ?_
  obtain ⟨saved,hcommit,rfl⟩ := hc.commits hu hm
  obtain ⟨l,hl,_⟩ := hcommit.after
  refine raises_get_bind ?_ rs _ rfl
  rw [show (c.committed d row saved).session.localIndex = c.session.localIndex from rfl,
    show d.after c.session.localIndex = .ok l from hl]
  exact raises_modify

omit [DecidableEq J] in
theorem current_raises (h : ∀ e, E e c) :
    Raises (· = c) Op.current E := by
  refine raises_bind (Q := fun _ s => s = c) (F := fun _ => True) ?_ ?_ fun _ => ?_
  · exact spec_get_bind (spec_lift (fun _ _ _ h => h) fun _ _ => trivial)
  · exact raises_get_bind (raises_lift fun e _ => h e)
  refine raises_ask_bind fun r => raises_lift_bind (fun e _ => h e) fun _ _ => raises_get_bind ?_
  split
  · exact raises_pure
  · exact raises_throw (h _)

theorem perform_raises {plan : ℕ → View J → Except Failure (Option (Draft J))} (hp : Plans env plan)
    (hc : CellInv env run c) : Raises (· = c) (Op.perform env plan) (Untouched c) := by
  have hsame : ∀ e, Untouched c e c := fun _ => .inr (.inl rfl)
  refine raises_bind (current_spec hc) (current_raises hsame) fun row => raises_assuming fun hu => ?_
  refine raises_ask_bind fun r => raises_lift_bind (fun e _ => hsame e) fun _ _ => raises_get_bind ?_
  refine raises_lift_bind (fun e _ => hsame e) fun o ho => ?_
  cases o with
  | none => exact raises_pure
  | some d => exact publish_raises hu (hp _ _ _ hu.view ho)

theorem ack_resent {v : View J} {id : String} {input : BatchResult J} {store : J} {reconciled : Bool}
    {finishAt : Option ℕ} {now : ℕ} {b : BatchHead J} {r : ReceiptData J} (hv : ViewInv env v)
    (hb : b ∈ v.session.head.batches) (hid : b.id = id) (hr : r ∈ b.receiptData)
    (hs : SameReceipt r.result input) :
    ack env id input store reconciled finishAt now v.session v.row ≠ .ok (some d) := by
  intro h
  obtain ⟨old,hk,_⟩ := ack_ok h
  have hsame : old = b := eq_of_batch_id hv.run.head hk.mem hb (hk.id.trans hid.symm)
  subst hsame
  obtain ⟨row,hrow,hadv⟩ := List.any_eq_true.mp (hk.advancing r hr)
  simp only [Bool.and_eq_true,decide_eq_true_eq] at hadv
  apply hadv.2
  rw [outcomeOf_of_mem hk.answers.outcomeIds (hs.2.2.1 row hrow),hadv.1]

theorem perform_idle {plan : ℕ → View J → Except Failure (Option (Draft J))} (hp : Plans env plan)
    (hc : CellInv env run c)
    (h : ∀ row, Usable env run c row → ∀ now d, plan now (c.view row) ≠ .ok (some d))
    (rs : List Reply) : (Op.perform env plan).final rs c = c := by
  refine (perform_spec hp hc).final (J := fun c' => c' = c) ?_ ?_ rfl
  · rintro _ _ ⟨row,hu,now,⟨_,hsame⟩ | ⟨d,hd,_⟩⟩
    · exact hsame
    · exact absurd hd (h row hu now d)
  · rintro _ (hsame | ⟨row,hu,now,d,hd,_⟩)
    · exact hsame
    · exact absurd hd (h row hu now d)

omit [DecidableEq J] in
theorem Usable.batches (hu : Usable env run c row) : c.batches = c.session.head.batches := by
  rw [Cell.batches,hu.lookup,Option.bind_some,show row.artifactHead = some c.session.head from hu.view.head]
  rfl

omit [DecidableEq J] in
theorem RowInv.restored (hr : RowInv env row) (hh : row.artifactHead = some h) :
    ∃ base next l, HeadInv env row.mode base next h ∧ restore env row.mode h = .ok l ∧ Indexed env h l := by
  have hhead : ∃ base next, HeadInv env row.mode base next h := by
    rcases hr h hh with hr | hc
    · exact ⟨_,_,hr.head⟩
    · obtain ⟨p,hp,hmode⟩ := hc.previous
      exact ⟨_,_,hmode ▸ hp.head⟩
  obtain ⟨base,next,hhead⟩ := hhead
  obtain ⟨l,hl,hidx⟩ := restore_indexed hhead
  exact ⟨base,next,l,hhead,hl,hidx⟩

omit [DecidableEq J] in
theorem CellInv.view (hc : CellInv env run c) (hlive : c.session.broken = false) (hrow : c.row = some row) :
    ViewInv env (c.view row) := by
  obtain ⟨row',hrow',hv⟩ := hc.live hlive
  rw [hrow,Option.some.injEq] at hrow'
  exact hrow' ▸ hv

omit [DecidableEq J] in
theorem CellInv.row_owned (hc : CellInv env run c) (hrow : c.row = some row) :
    row ∈ c.db.controls ∧ run.owns row := by
  obtain ⟨hmem,hkey⟩ := Db.control_mem hrow
  exact ⟨hmem,hc.sync.owns.mp (RunInput.owns_of_key hkey)⟩

theorem reopening_rebuilds_index (hr : Reached env run c) (hrow : row ∈ c.db.controls) (hown : run.owns row)
    (hh : row.artifactHead = some h) :
    ∃ l, restore env row.mode h = .ok l ∧ (∀ i, h.Pruned i → l.members[i]? = none) ∧
      (∀ i, ¬h.Pruned i → Latest h.baselineEntry (h.operations env) i l.members[i]?) ∧
      (c.session.broken = false → c.row = some row →
        c.session.head = h ∧ SameEvidence l c.session.localIndex) := by
  obtain ⟨base,next,l,hhead,hl,hidx⟩ := (hr.inv.rows row hrow hown).restored hh
  refine ⟨l,hl,hidx.pruned,hidx.members,fun hlive hlook => ?_⟩
  have hv := hr.inv.view hlive hlook
  have hsame : c.session.head = h := Option.some.inj (hv.head.symm.trans hh)
  exact ⟨hsame,hidx.unique hhead (hsame ▸ hv.indexed)⟩

omit [DecidableEq J] in
theorem CellInv.runInv (hc : CellInv env run c) (hrow : row ∈ c.db.controls) (hown : run.owns row)
    (hh : row.artifactHead = some h) (hid : h.runId = row.runId) : RunInv env row h :=
  (hc.rows row hrow hown h hh).resolve_right fun hcar => hcar.foreign hid

theorem mirror_membership_safe (hr : Reached env run c) (hrow : row ∈ c.db.controls) (hown : run.owns row)
    (hh : row.artifactHead = some h) (hid : h.runId = row.runId) (hmode : row.mode = .mirror) :
    MirrorInv env h ∧ (row.phase = .complete → h.isNative = false →
      ∃ l, restore env row.mode h = .ok l ∧ ∀ i payload,
        l.Holds i payload ↔ ∃ e ∈ h.desired, e.identityHash = i ∧ e.payloadHash = payload) := by
  have hrun := hr.inv.runInv hrow hown hh hid
  refine ⟨hrun.mirror hmode,fun hcomplete hnative => ?_⟩
  obtain ⟨l,hl,hidx⟩ := restore_indexed hrun.head
  exact ⟨l,hl,hrun.complete hcomplete hmode hnative l hidx⟩

theorem acknowledgement_monotone (hr : Reached env run c) :
    (∀ xs, (∀ x ∈ xs, x.1.For run) → ∀ key row h, c.db.control key = some row → run.owns row →
      row.artifactHead = some h → h.runId = row.runId →
        ∃ row' h', (c.calls env xs).db.control key = some row' ∧ row'.artifactHead = some h' ∧
          h.ReceiptsGrown h') ∧
    (∀ b ∈ c.batches, ∀ r ∈ b.receiptData, ∀ result store reconciled replies, SameReceipt r.result result →
      (Op.ack env b.id result store reconciled none).final replies c = c) ∧
    ∀ id result store reconciled replies e left c',
      Op.ack env id result store reconciled none replies c = (.thrown e,left,c') → Untouched c e c' := by
  have hc := hr.inv
  refine ⟨fun xs hx key row h hrow hown hh hid => ?_,fun b hb r hr result store reconciled replies hs => ?_,?_⟩
  · have hstart : Owned env (fun row => ∃ h', row.artifactHead = some h' ∧ h.ReceiptsGrown h') row :=
      ⟨⟨h,hh,hc.runInv (Db.control_mem hrow).1 hown hh hid⟩,h,hh,
        fun b hb => ⟨b,hb,rfl,fun r hr => ⟨r,hr,.refl r⟩⟩⟩
    obtain ⟨row',hrow',_,h',hh',hg⟩ := (hc.calls hx).follows.owned (stable_receiptsGrown h) hrow hstart
    exact ⟨row',h',hrow',hh',hg⟩
  · refine perform_idle plans_ack hc (fun row hu now d => ?_) replies
    exact ack_resent hu.view (hu.batches ▸ hb) rfl hr hs
  · intro id result store reconciled replies e left c' h
    exact perform_raises plans_ack hc replies _ rfl e left c' h

end Runs

theorem emptyDb_fresh : emptyDb.Fresh firstRun := by
  intro row hr
  cases hr

theorem openedCell_reached : Reached (plainEnv defaultLimits) firstRun openedCell :=
  ⟨emptyDb,plainProject,_,emptyDb_fresh,by decide +kernel,rfl⟩

theorem secondCalls_for : ∀ x ∈ secondCalls, x.1.For firstRun := by decide +kernel

theorem stagedCell_reached : Reached (plainEnv defaultLimits) firstRun stagedCell :=
  openedCell_reached.calls secondCalls_for

theorem reopening_rebuilds_index_successor :
    ∃ row h l, stagedCell.row = some row ∧ row.artifactHead = some h ∧ h.members.length = 2 ∧
      h.batches.map BatchHead.staged = [1,0,0] ∧ restore (plainEnv defaultLimits) row.mode h = .ok l ∧
      SameEvidence l stagedCell.session.localIndex := by
  have hrun : (stagedCell.row.any fun row => row.artifactHead.any fun h =>
      h.members.length = 2 ∧ h.batches.map BatchHead.staged = [1,0,0] ∧
        stagedCell.session.broken = false) = true := by decide +kernel
  simp only [Option.any_eq_true,decide_eq_true_eq] at hrun
  obtain ⟨row,hrow,h,hh,hmembers,hstaged,hlive⟩ := hrun
  obtain ⟨hmem,hown⟩ := stagedCell_reached.inv.row_owned hrow
  obtain ⟨l,hl,-,-,hsame⟩ := reopening_rebuilds_index stagedCell_reached hmem hown hh
  exact ⟨row,h,l,hrow,hh,hmembers,hstaged,hl,(hsame hlive hrow).2⟩

theorem mirror_membership_safe_complete :
    ∃ row h, (plainCell mirrorCalls).row = some row ∧ row.artifactHead = some h ∧ row.phase = .complete ∧
      h.members.length = 2 ∧ h.desired = [plainEffect "a" "u",plainEffect "c" "z"] ∧
      MirrorInv (plainEnv defaultLimits) h ∧ ∃ l, restore (plainEnv defaultLimits) row.mode h = .ok l ∧
        ∀ i payload, l.Holds i payload ↔ ∃ e ∈ h.desired, e.identityHash = i ∧ e.payloadHash = payload := by
  have hrun : ((plainCell mirrorCalls).row.any fun row => row.artifactHead.any fun h =>
      row.phase = .complete ∧ h.members.length = 2 ∧ h.desired = [plainEffect "a" "u",plainEffect "c" "z"] ∧
        h.runId = row.runId ∧ row.mode = .mirror ∧ h.isNative = false) = true := by decide +kernel
  simp only [Option.any_eq_true,decide_eq_true_eq] at hrun
  obtain ⟨row,hrow,h,hh,hphase,hmembers,hdesired,hid,hmode,hnative⟩ := hrun
  have hreached : Reached (plainEnv defaultLimits) firstRun (plainCell mirrorCalls) :=
    ⟨emptyDb,plainProject,mirrorCalls,emptyDb_fresh,by decide +kernel,rfl⟩
  obtain ⟨hmem,hown⟩ := hreached.inv.row_owned hrow
  obtain ⟨hmirror,hcomplete⟩ := mirror_membership_safe hreached hmem hown hh hid hmode
  exact ⟨row,h,hrow,hh,hphase,hmembers,hdesired,hmirror,hcomplete hphase hnative⟩

theorem acknowledgement_monotone_late :
    ∃ row h row' h', stagedCell.row = some row ∧ row.artifactHead = some h ∧
      h.batches.map BatchHead.staged = [1,0,0] ∧
      (stagedCell.calls (plainEnv defaultLimits) lateReceipt).db.control stagedCell.session.scope.key =
        some row' ∧ row'.artifactHead = some h' ∧ h'.batches.map BatchHead.staged = [0,0,0] ∧
      h.ReceiptsGrown h' := by
  have hrun : (stagedCell.row.any fun row => row.artifactHead.any fun h =>
      h.batches.map BatchHead.staged = [1,0,0] ∧ h.runId = row.runId ∧
        ((stagedCell.calls (plainEnv defaultLimits) lateReceipt).db.control
          stagedCell.session.scope.key).any (fun row =>
            row.artifactHead.any fun h => h.batches.map BatchHead.staged = [0,0,0])) = true := by
    decide +kernel
  simp only [Option.any_eq_true,decide_eq_true_eq] at hrun
  obtain ⟨row,hrow,h,hh,hstaged,hid,row',hrow',h',hh',hstaged'⟩ := hrun
  obtain ⟨-,hown⟩ := stagedCell_reached.inv.row_owned hrow
  obtain ⟨row'',h'',hrow'',hh'',hg⟩ := (acknowledgement_monotone stagedCell_reached).1 lateReceipt
    (by decide +kernel) _ row h hrow hown hh hid
  rw [hrow',Option.some.injEq] at hrow''
  subst hrow''
  rw [hh',Option.some.injEq] at hh''
  exact ⟨row,h,row',h',hrow,hh,hstaged,hrow',hh',hstaged',hh'' ▸ hg⟩

end Jitsu.ReverseEtl
