import Jitsu.ReverseEtl.Mirror

namespace Jitsu.ReverseEtl
open Checked Std

variable {J : Type} {env : Env J} {v : View J} {d : Draft J}

@[simp] theorem Draft.row_phase : (d.row v).phase = d.changes.phase.getD v.row.phase := rfl

@[simp] theorem Draft.row_nextSequence :
    (d.row v).nextSequence = d.changes.nextSequence.getD v.row.nextSequence := rfl

@[simp] theorem Draft.row_checkpointSequence :
    (d.row v).checkpointSequence = d.changes.checkpointSequence.getD v.row.checkpointSequence := rfl

@[simp] theorem Draft.row_finishSequence :
    (d.row v).finishSequence = d.changes.finishSequence.orElse fun _ => v.row.finishSequence := rfl

@[simp] theorem HeadEdit.keep_apply {h : ArtifactHead J} : HeadEdit.keep.apply h = h := rfl

namespace PhaseMove

variable {p q : Phase} (h : PhaseMove p q)
include h

theorem fresh (hq : q = .new ∨ q = .initPrepared) : p = .new ∨ p = .initPrepared := by
  cases h <;> simp_all

theorem ended (hp : p = .finishAccepted ∨ p = .complete) : q = p := by
  rcases hp with rfl | rfl <;> cases h <;> simp_all

theorem complete (hq : q = .complete) : p = .complete := by
  cases h <;> simp_all

theorem finishing (hp : p.finishing = true) : q.finishing = true := by
  cases h with
  | same => exact hp
  | prepareAbort h => rcases h with rfl | rfl <;> cases hp
  | finishPending | finishResolving => rfl
  | _ => cases hp

end PhaseMove

structure HeadStep (env : Env J) (v : View J) (edit : HeadEdit J) (l : LocalIndex J) : Prop where
  run : (edit.apply v.session.head).runId = v.session.head.runId
  indexed : Indexed env (edit.apply v.session.head) l
  upsert : v.session.head.snapshot = none → v.row.mode = .upsert →
    (edit.apply v.session.head).snapshot = none
  mirror : v.row.mode = .mirror → MirrorInv env (edit.apply v.session.head)

theorem HeadStep.keep (hv : ViewInv env v) : HeadStep env v .keep v.session.localIndex where
  run := rfl
  indexed := hv.indexed
  upsert := fun h _ => h
  mirror := hv.run.mirror

theorem HeadStep.replacement {status : ReplacementStatus} {l : LocalIndex J} (hv : ViewInv env v)
    (hi : Indexed env ((HeadEdit.replacement status).apply v.session.head) l) :
    HeadStep env v (.replacement status) l where
  run := rfl
  indexed := hi
  upsert := by
    intro h _
    simp [HeadEdit.apply,h]
  mirror := fun hm => (hv.run.mirror hm).replacement

theorem HeadStep.restatus {f : BatchHead J → BatchHead J} {edit : HeadEdit J} (hv : ViewInv env v)
    (he : edit.apply v.session.head = { v.session.head with batches := v.session.head.batches.map f })
    (hf : ∀ b ∈ v.session.head.batches, (f b).data = b.data ∧ (f b).receipt = b.receipt) :
    HeadStep env v edit v.session.localIndex where
  run := by rw [he]
  indexed := by
    rw [he]
    exact hv.indexed.restatus hf
  upsert := by
    intro h _
    rw [he]
    exact h
  mirror := by
    intro hm
    rw [he]
    exact (hv.run.mirror hm).map fun b hb => (hf b hb).1

variable {l : LocalIndex J} {saved : Option (Envelope J)}

theorem ViewInv.advance (hv : ViewInv env v)
    (hs : HeadStep env v d.edit l)
    (hrow : HeadInv env v.row.mode v.row.baseSequence (d.row v).nextSequence (d.edit.apply v.session.head))
    (hcheck : v.row.baseSequence ≤ (d.row v).checkpointSequence ∧
      (d.row v).checkpointSequence ≤ (d.row v).nextSequence)
    (hfresh : (d.row v).phase = .new ∨ (d.row v).phase = .initPrepared →
      (d.edit.apply v.session.head).batches = [] ∧ (d.row v).checkpointSequence = v.row.baseSequence)
    (hreplaced : (d.edit.apply v.session.head).replaced = true →
      (d.row v).phase = .finishAccepted ∨ (d.row v).phase = .complete)
    (hcomplete : (d.row v).phase = .complete → v.row.mode = .mirror →
      (d.edit.apply v.session.head).isNative = false → Promoted env (d.edit.apply v.session.head))
    (hfinish : (d.row v).finishSequence.isSome = true → (d.row v).phase.finishing = true)
    (hpending : ∀ p ∈ (v.session.advance d l).pending, PendingInv (v.session.advance d l) p) :
    ViewInv env (v.next d l saved) where
  scope := ⟨hv.scope.key,hv.scope.mode,hv.scope.extraction,hv.scope.revision,hv.scope.target⟩
  head := rfl
  bytes := rfl
  run := ⟨hs.run.trans hv.run.run,hrow,hcheck,hfresh,hreplaced,fun hm => hs.upsert (hv.run.upsert hm) hm,
    hs.mirror,hcomplete,hfinish⟩
  indexed := hs.indexed
  pending := hpending

theorem ViewInv.pending_advance (hv : ViewInv env v)
    (hs : (d.edit.apply v.session.head).isSealed = v.session.head.isSealed) :
    ∀ p ∈ (v.session.advance d l).pending, PendingInv (v.session.advance d l) p := by
  intro p hp
  have hmem : p ∈ v.session.pending := by
    simp only [Session.advance] at hp
    split at hp
    · cases hp
    · exact hp
  have hpend := hv.pending p hmem
  exact ⟨hpend.mode,hpend.unsealed,hpend.unreplaced,hs.trans hpend.head⟩

def Phase.active (p : Phase) : Bool := p ≠ .new && p ≠ .initPrepared && p ≠ .complete

theorem ViewInv.advance_active
    (hv : ViewInv env v) (hs : HeadStep env v d.edit l)
    (hrow : HeadInv env v.row.mode v.row.baseSequence (d.row v).nextSequence (d.edit.apply v.session.head))
    (hcheck : d.changes.checkpointSequence = none) (hnext : v.row.nextSequence ≤ (d.row v).nextSequence)
    (hphase : (d.row v).phase.active = true)
    (hfinish : (d.row v).phase.finishing = true ∨
      d.changes.finishSequence = none ∧ v.row.phase.finishing = false)
    (hreplaced : (d.edit.apply v.session.head).replaced = true → (d.row v).phase = .finishAccepted)
    (hsealed : (d.edit.apply v.session.head).isSealed = v.session.head.isSealed) :
    ViewInv env (v.next d l saved) := by
  have hc : (d.row v).checkpointSequence = v.row.checkpointSequence := by
    simp [hcheck]
  obtain ⟨h₁,h₂⟩ := hv.run.checkpoint
  refine hv.advance hs hrow ⟨hc ▸ h₁,hc ▸ h₂.trans hnext⟩ ?_ (fun hr => .inl (hreplaced hr)) ?_ ?_
    (hv.pending_advance hsealed)
  · rintro (hp | hp) <;> exact absurd (hp ▸ hphase) (by decide)
  · intro hp
    exact absurd (hp ▸ hphase) (by decide)
  · intro hsome
    rcases hfinish with hf | ⟨hnone,hf⟩
    · exact hf
    · rw [Draft.row_finishSequence,hnone] at hsome
      exact absurd (hf.symm.trans (hv.run.finish hsome)) (by simp)

theorem ViewInv.unreplaced (hv : ViewInv env v) (h₁ : v.row.phase ≠ .finishAccepted)
    (h₂ : v.row.phase ≠ .complete) : v.session.head.replaced = false := by
  rcases hr : v.session.head.replaced with _ | _
  · rfl
  · rcases hv.run.replaced hr with hp | hp
    · exact absurd hp h₁
    · exact absurd hp h₂

theorem ViewInv.control {changes : Changes J} {expectedPhase : Option Phase}
    (hv : ViewInv env v) (ho : ControlOnly changes)
    (hp : PhaseMove v.row.phase (changes.phase.getD v.row.phase)) :
    ViewInv env
      (v.next { changes := changes, expectedPhase := expectedPhase } v.session.localIndex saved) := by
  refine hv.advance (.keep hv) ?_ ?_ ?_ ?_ (fun hq => hv.run.complete (hp.complete hq)) ?_
    (hv.pending_advance rfl)
  · simpa [ho.next] using hv.run.head
  · simpa [ho.next,ho.checkpoint] using hv.run.checkpoint
  · intro hq
    simpa [ho.checkpoint] using hv.run.fresh (hp.fresh hq)
  · intro hr
    have hended := hv.run.replaced hr
    simpa [hp.ended hended] using hended
  · intro hsome
    rw [Draft.row_finishSequence,ho.finish] at hsome
    exact hp.finishing (hv.run.finish hsome)

abbrev View.IndexKept (env : Env J) (v : View J) (d : Draft J) : Prop :=
  d.after v.session.localIndex = .ok v.session.localIndex ∧
    ∀ saved, ViewInv env (v.next d v.session.localIndex saved)

section Finish

variable {sequence : ℕ} {store : J} {d : Draft J} {saved : Option (Envelope J)}

theorem ViewInv.prepareFinish (hv : ViewInv env v)
    (h : prepareFinish env sequence store v.session v.row = .ok d) :
    v.IndexKept env d := by
  simp only [ReverseEtl.prepareFinish,bind_eq_ok,require_eq_ok,pure_eq_ok,encodeJson] at h
  obtain ⟨_,⟨_,_,hphase⟩,_,_,_,_,_,⟨_,_,rfl⟩,rfl⟩ := h
  have hr : v.session.head.replaced = false := hv.unreplaced (by rintro h; simp [h] at hphase)
    (by rintro h; simp [h] at hphase)
  refine ⟨rfl,fun saved => ?_⟩
  by_cases hn : v.session.head.isNative = true
  · refine hv.advance_active (l := v.session.localIndex) ?_ ?_ rfl le_rfl rfl (.inl rfl) ?_ ?_
    · simpa [hn] using HeadStep.replacement hv (hv.indexed.replacement hr (by simp))
    · simpa [hn] using hv.run.head.replacement (by simp)
    · simp [hn,replacement_replaced]
    · simp [hn,replacement_isSealed]
  · refine hv.advance_active (l := v.session.localIndex) ?_ ?_ rfl le_rfl rfl (.inl rfl) ?_ ?_
    · simpa [hn] using HeadStep.keep hv
    · simpa [hn] using hv.run.head
    · simp [hn,hr]
    · simp [hn]

theorem ViewInv.pendingFinish {changes : Changes J} (hv : ViewInv env v) (ho : ControlOnly changes)
    (hphase : v.row.phase = .finishPrepared ∨ v.row.phase = .finishPending)
    (ht : changes.phase = some .finishPending) :
    ViewInv env (v.next { edit := .replacement .pending, changes := changes } v.session.localIndex saved) := by
  have hr : v.session.head.replaced = false := hv.unreplaced (by rintro h; simp [h] at hphase)
    (by rintro h; simp [h] at hphase)
  refine hv.advance_active (.replacement hv (hv.indexed.replacement hr (by simp))) ?_ ho.checkpoint ?_ ?_
    (.inl ?_) ?_
    replacement_isSealed
  · simpa [ho.next] using hv.run.head.replacement (by simp)
  · simp [ho.next]
  · simp [ht,Phase.active]
  · simp [ht,Phase.finishing]
  · simp [replacement_replaced]

theorem replacementReady_sealed {s : Session J} (h : replacementReady s = .ok ()) :
    s.head.isSealed = true := by
  simp only [replacementReady,bind_eq_ok,require_eq_ok] at h
  obtain ⟨_,⟨hs,_⟩,_⟩ := h
  exact hs

theorem ViewInv.acceptFinish (hv : ViewInv env v) (hphase : v.row.phase = .finishResolving)
    (h : acceptFinish v.session = .ok d) :
    ∃ l, d.after v.session.localIndex = .ok l ∧ ∀ saved, ViewInv env (v.next d l saved) := by
  have hr : v.session.head.replaced = false := hv.unreplaced (by simp [hphase]) (by simp [hphase])
  simp only [ReverseEtl.acceptFinish,bind_eq_ok,onlyIf_eq_ok,pure_eq_ok] at h
  obtain ⟨_,hready,rfl⟩ := h
  refine ⟨_,rfl,fun saved => ?_⟩
  by_cases hn : v.session.head.isNative = true
  · have hs := replacementReady_sealed (hready hn)
    refine hv.advance_active ?_ ?_ rfl le_rfl rfl (.inl rfl) (fun _ => rfl) ?_
    · simpa [hn] using HeadStep.replacement hv (hv.indexed.accept hr hn hs)
    · simpa [hn] using hv.run.head.replacement fun _ _ => hs
    · simp [hn,replacement_isSealed]
  · refine hv.advance_active ?_ ?_ rfl le_rfl rfl (.inl rfl) (fun _ => rfl) ?_
    · simpa [hn] using HeadStep.keep hv
    · simpa [hn] using hv.run.head
    · simp [hn]

end Finish

theorem ViewInv.running_unreplaced (hv : ViewInv env v) (hp : v.row.phase = .running) :
    v.session.head.replaced = false := hv.unreplaced (by simp [hp]) (by simp [hp])

theorem ViewInv.session_run (hv : ViewInv env v) : v.session.head.runId = v.session.scope.logicalRunId := by
  have hkey := hv.scope.key
  simp only [ControlRow.key,RunInput.key,List.cons.injEq] at hkey
  exact hv.run.run.trans hkey.2.2.1

theorem ViewInv.session_head (hv : ViewInv env v) :
    HeadInv env v.session.scope.mode v.row.baseSequence v.row.nextSequence v.session.head :=
  hv.scope.mode ▸ hv.run.head

section Batches

variable [DecidableEq J] {id : String} {store : J} {d : Draft J}

theorem ViewInv.prepare {batch : PreparedBatch J} {independent : Bool} (hv : ViewInv env v)
    (h : prepare env batch store independent v.session v.row = .ok d) :
    ∃ l, d.after v.session.localIndex = .ok l ∧ ∀ saved, ViewInv env (v.next d l saved) := by
  obtain ⟨projected,hp,rfl⟩ := prepare_ok h
  have hr := hv.running_unreplaced hp.phase
  obtain ⟨l,hafter,hidx⟩ := hp.indexed hv.session_head hv.indexed hv.session_run hr
  refine ⟨l,hafter,fun saved => ?_⟩
  refine hv.advance_active ⟨rfl,hidx,fun hs _ => hs,fun hm => ?_⟩ ?_ rfl ?_ ?_
    (.inr ⟨rfl,by rw [hp.phase]; rfl⟩) (fun hrep => nomatch hr.symm.trans hrep) rfl
  · exact hp.mirrorInv (hv.scope.mode.symm.trans hm) (hv.run.mirror hm) hv.indexed
  · rw [hv.scope.mode]
    exact hp.headInv hv.session_head hv.indexed hv.session_run
  · simp [prepareDraft]
  · change v.row.phase.active = true
    rw [hp.phase]
    rfl

theorem ViewInv.acknowledge {input : BatchResult J} {reconciled : Bool} {finishAt : Option ℕ} {now : ℕ}
    (hv : ViewInv env v)
    (h : ack env id input store reconciled finishAt now v.session v.row = .ok (some d)) :
    ∃ l, d.after v.session.localIndex = .ok l ∧ ∀ saved, ViewInv env (v.next d l saved) := by
  obtain ⟨old,hk,rfl⟩ := ack_ok h
  have hr : v.session.head.replaced = false := by
    apply hv.unreplaced <;> intro hp <;> simpa [hp] using hk.phase
  obtain ⟨l,hafter,hidx⟩ := ack_indexed store (finishAt.getD now) hv.run.head hv.indexed hk hr
  refine ⟨l,hafter,fun saved => ?_⟩
  refine hv.advance_active ⟨rfl,hidx,fun hs _ => hs,fun hm => (hv.run.mirror hm).map ?_⟩
    (replace_headInv _ hv.run.head hk) rfl le_rfl ?_ ?_ (fun hrep => nomatch hr.symm.trans hrep) rfl
  · intro b hb
    split
    · rename_i he
      rw [eq_of_batch_id hv.run.head hb hk.mem he]
      rfl
    · rfl
  · change v.row.phase.active = true
    rcases hk.phase with hp | hp | hp <;> rw [hp] <;> rfl
  · rcases hk.phase with hp | hp | hp
    · exact .inr ⟨rfl,by rw [hp]; rfl⟩
    · exact .inr ⟨rfl,by rw [hp]; rfl⟩
    · exact .inl (by rw [Draft.row_phase]; exact hp ▸ rfl)

end Batches

section Statuses

variable {id : String} {d : Draft J}

theorem markUnknown_ok {s : Session J} {c : ControlRow J} (h : markUnknown id s c = .ok (some d)) :
    c.phase = .running ∧ (∃ old ∈ s.head.batches, old.id = id ∧ old.status = .prepared) ∧
      d = { edit := .markUnknown id } := by
  simp only [markUnknown,bind_eq_ok,require_eq_ok] at h
  obtain ⟨_,hphase,old,hold,h⟩ := h
  obtain ⟨hmem,hid⟩ := find_ok hold
  split at h
  · simp at h
  · next hs =>
    cases h
    exact ⟨hphase,⟨old,hmem,hid,not_not.mp hs⟩,rfl⟩

theorem ViewInv.markUnknown (hv : ViewInv env v) (h : markUnknown id v.session v.row = .ok (some d)) :
    v.IndexKept env d := by
  obtain ⟨hphase,⟨old,hmem,hid,hs⟩,rfl⟩ := markUnknown_ok h
  have hr := hv.unreplaced (by simp [hphase]) (by simp [hphase])
  refine ⟨rfl,fun saved => ?_⟩
  refine hv.advance_active (.restatus hv rfl ?_) ?_ rfl le_rfl ?_ (.inr ⟨rfl,by rw [hphase]; rfl⟩)
    (fun hrep => nomatch hr.symm.trans hrep) rfl
  · intro b _
    split <;> exact ⟨rfl,rfl⟩
  · exact hv.run.head.markUnknown hmem hid hs
  · change v.row.phase.active = true
    rw [hphase]
    rfl

theorem ViewInv.acknowledgeAbort (hv : ViewInv env v) (h : acknowledgeAbort v.row = .ok d) :
    v.IndexKept env d := by
  simp only [ReverseEtl.acknowledgeAbort,bind_eq_ok,require_eq_ok,pure_eq_ok] at h
  obtain ⟨_,hphase,rfl⟩ := h
  have hr := hv.unreplaced (by simp [hphase]) (by simp [hphase])
  refine ⟨rfl,fun saved => ?_⟩
  refine hv.advance_active (.restatus hv rfl fun b _ => (cancel_frame b).2.2.2) hv.run.head.cancelStaged rfl
    le_rfl rfl (.inr ⟨rfl,by rw [hphase]; rfl⟩) (fun hrep => by cases hr.symm.trans hrep) rfl

end Statuses

section Snapshot

variable {p : SnapshotHead J} {d : Draft J} {saved : Option (Envelope J)}

theorem ViewInv.snapshot {p' : SnapshotHead J} {closes : Bool} (hv : ViewInv env v)
    (hp : v.session.pending = some p) (hr : p'.replacementStatus = none) (hphase : v.row.phase ≠ .complete)
    (hi : Indexed env ((HeadEdit.snapshot p').apply v.session.head) v.session.localIndex)
    (hh : HeadInv env v.row.mode v.row.baseSequence v.row.nextSequence
      ((HeadEdit.snapshot p').apply v.session.head))
    (hs : closes = true ∨ p'.isSealed = false) :
    ViewInv env (v.next { edit := .snapshot p', closesSnapshot := closes } v.session.localIndex saved) := by
  have hpend := hv.pending p hp
  have hmode : v.row.mode = .mirror := hv.scope.mode.trans hpend.mode
  have hempty := (hv.run.mirror hmode).unsealed hpend.head
  refine hv.advance ⟨rfl,hi,fun _ hu => (nomatch hmode.symm.trans hu),fun _ => MirrorInv.of_batches hempty⟩
    hh hv.run.checkpoint (fun hf => ⟨hempty,(hv.run.fresh hf).2⟩) ?_ (fun hc => absurd hc hphase)
    hv.run.finish ?_
  · intro ht
    exact nomatch (snapshot_unreplaced hr).symm.trans ht
  · rcases hs with rfl | hs
    · intro q hq
      simp [Session.advance] at hq
    · exact hv.pending_advance (hs.trans hpend.head.symm)

theorem ViewInv.startSnapshot (hv : ViewInv env v) (hp : v.session.pending = some p)
    (hphase : v.row.phase = .new ∨ v.row.phase = .running) :
    ViewInv env (v.next { edit := .snapshot p } v.session.localIndex saved) := by
  have hpend := hv.pending p hp
  exact hv.snapshot hp hpend.unreplaced (by rcases hphase with h | h <;> simp [h])
    (hv.indexed.start hv.run.head hpend.head hpend.unsealed hpend.unreplaced)
    (hv.run.head.start hpend.unsealed hpend.unreplaced) (.inr hpend.unsealed)

theorem sealSnapshot_ok {counts : Option (ℕ × ℕ)} {s : Session J} {c : ControlRow J}
    (h : sealSnapshot env counts s c = .ok d) : c.phase = .running ∧ ∃ p ∈ s.pending, ∃ p',
      d = { edit := .snapshot p', closesSnapshot := true } ∧ p'.isSealed = true ∧
      p'.replacementStatus = p.replacementStatus ∧ p'.strategy = p.strategy ∧
      p'.parts.flatMap ArtifactRef.value = s.localIndex.desiredValues := by
  simp only [sealSnapshot,bind_eq_ok,require_eq_ok] at h
  obtain ⟨_,hphase,h⟩ := h
  refine ⟨hphase,?_⟩
  split at h
  · simp at h
  · rename_i p hp
    simp only [bind_eq_ok,require_eq_ok,pure_eq_ok] at h
    obtain ⟨_,_,pages,hpages,rfl⟩ := h
    have hflat := LocalIndex.artifactPages_flatten hpages
    refine ⟨p,hp,_,rfl,rfl,rfl,rfl,?_⟩
    simpa [List.flatMap_def,Function.comp_def,putArtifact] using hflat

theorem ViewInv.sealSnapshot {counts : Option (ℕ × ℕ)} (hv : ViewInv env v)
    (h : sealSnapshot env counts v.session v.row = .ok d) :
    v.IndexKept env d := by
  obtain ⟨hphase,p,hp,p',rfl,hs,hr,_,hparts⟩ := sealSnapshot_ok h
  have hpend := hv.pending p hp
  have hsealed : Sealed v.session.localIndex p' := ⟨hs,hr.trans hpend.unreplaced,hparts⟩
  refine ⟨rfl,fun saved => hv.snapshot hp hsealed.unreplaced (by simp [hphase]) ?_ ?_ (.inl rfl)⟩
  · exact hv.indexed.seal (hv.run.head.replaced_false hpend.head) hsealed
  · exact hv.run.head.seal hv.indexed hsealed

end Snapshot

section Checkpoint

variable {point : ResumePoint} {store : J} {complete : Bool} {saved : Option (Envelope J)} {s : Session J}
  {c : ControlRow J} {d : Draft J}

structure Checkpointed (env : Env J) (point : ResumePoint) (complete : Bool) (saved : Option (Envelope J))
    (s : Session J) (c : ControlRow J) : Prop where
  bounds : c.checkpointSequence ≤ point.sourceSequence ∧ point.sourceSequence ≤ c.nextSequence
  phase : if complete then c.phase = .finishAccepted
    else c.phase = .running ∧ s.scope.mode = .upsert ∧ s.scope.extraction = .cursor
  finish : complete = true → c.finishSequence = some point.sourceSequence ∧
    point.sourceSequence = c.nextSequence
  accepted : c.baseSequence + s.localIndex.acceptedBetween c.baseSequence point.sourceSequence =
    point.sourceSequence
  cursor : ∃ expected, finalPoint env point.sourceSequence saved s = .ok expected ∧
    point.cursor = expected.cursor
  boundary : c.baseSequence < point.sourceSequence → ∃ b ∈ s.head.batches, b.last = point.sourceSequence
  promotable : s.scope.mode = .mirror → promotable s = .ok ()

def checkpointDraft (point : ResumePoint) (store : J) (complete : Bool) (s : Session J) (c : ControlRow J) :
    Draft J :=
  let generation := if s.scope.mode = .mirror then some s.scope.logicalRunId else c.committedGeneration
  { changes :=
      { checkpointSequence := some point.sourceSequence
        phase := some (if complete then .complete else c.phase)
        committedGeneration := some generation
        store := some store }
    checkpoint := some ⟨point,store,generation⟩ }

theorem commitCheckpoint_ok (h : commitCheckpoint env point store complete saved s c = .ok d) :
    Checkpointed env point complete saved s c ∧ d = checkpointDraft point store complete s c := by
  simp only [commitCheckpoint,bind_eq_ok,require_eq_ok,onlyIf_eq_ok,pure_eq_ok,encodeJson] at h
  obtain ⟨_,_,_,⟨_,hb⟩,_,hphase,_,hfin,_,hacc,expected,hexp,_,hcur,_,hbound,_,hprom,_,⟨_,_,rfl⟩,rfl⟩ := h
  exact ⟨⟨hb,hphase,hfin,hacc,⟨expected,hexp,hcur⟩,hbound,hprom⟩,rfl⟩

theorem ViewInv.commitCheckpoint {seen : Option (Envelope J)} (hv : ViewInv env v)
    (h : commitCheckpoint env point store complete seen v.session v.row = .ok d) :
    v.IndexKept env d := by
  obtain ⟨hc,rfl⟩ := commitCheckpoint_ok h
  refine ⟨rfl,fun saved => ?_⟩
  obtain ⟨hb₁,_⟩ := hv.run.checkpoint
  refine hv.advance (.keep hv) hv.run.head ⟨hb₁.trans hc.bounds.1,hc.bounds.2⟩ ?_ ?_ ?_ ?_
    (hv.pending_advance rfl)
  · intro hf
    cases complete with
    | true => simp [checkpointDraft] at hf
    | false =>
      have hp := hc.phase.1
      simp [checkpointDraft,hp] at hf
  · intro hr
    cases complete with
    | true => simp [checkpointDraft]
    | false => exact hv.run.replaced hr
  · intro hp hm hn
    exact promoted_of_promotable hv.run.head hv.indexed hn (hc.promotable (hv.scope.mode.symm.trans hm))
  · intro hsome
    cases complete with
    | true => rfl
    | false => exact hv.run.finish hsome

end Checkpoint

theorem Move.preserves [DecidableEq J] (hv : ViewInv env v) (hm : Move env v d) :
    ∃ l, d.after v.session.localIndex = .ok l ∧ ∀ saved, ViewInv env (v.next d l saved) := by
  cases hm with
  | control only phase => exact ⟨_,rfl,fun _ => hv.control only phase⟩
  | prepareFinish h => exact ⟨_,hv.prepareFinish h⟩
  | pendingFinish only native phase target => exact ⟨_,rfl,fun _ => hv.pendingFinish only phase target⟩
  | acceptFinish phase h => exact hv.acceptFinish phase h
  | prepare h => exact hv.prepare h
  | markUnknown h => exact ⟨_,hv.markUnknown h⟩
  | acknowledge h => exact hv.acknowledge h
  | acknowledgeAbort h => exact ⟨_,hv.acknowledgeAbort h⟩
  | startSnapshot pending mode phase => exact ⟨_,rfl,fun _ => hv.startSnapshot pending phase⟩
  | sealSnapshot h => exact ⟨_,hv.sealSnapshot h⟩
  | commitCheckpoint h => exact ⟨_,hv.commitCheckpoint h⟩

end Jitsu.ReverseEtl
