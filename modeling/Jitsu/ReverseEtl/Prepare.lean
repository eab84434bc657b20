import Jitsu.ReverseEtl.Publish

namespace Jitsu.ReverseEtl
open Checked Std

variable {J : Type} {env : Env J} {s : Session J} {independent : Bool} {action : Action}

def Separate (s : Session J) (independent : Bool) : Prop := independent = true ∨ s.head.isNative = true

def Removes (s : Session J) (action : Action) : Prop := s.scope.mode = .mirror ∧ action = .remove

structure EffectsAdmitted (s : Session J) (independent : Bool) (action : Action) (seen : List String)
    (es : List (Effect J)) (seen' : List String) : Prop where
  visited : ∀ i, i ∈ seen' ↔ i ∈ seen ∨ i ∈ es.map Effect.identityHash
  distinct : Separate s independent → (es.map Effect.identityHash).Nodup ∧
    ∀ e ∈ es, e.identityHash ∉ seen ∧ e.identityHash ∉ s.localIndex.touched
  kept : Removes s action → ∀ e ∈ es, e.identityHash ∉ s.localIndex.desired

theorem checkEffects_ok {es : List (Effect J)} {seen seen' : List String}
    (h : es.foldlM (checkEffect s independent action) seen = .ok seen') :
    EffectsAdmitted s independent action seen es seen' := by
  induction es generalizing seen with
  | nil =>
    cases h
    exact ⟨by simp,by simp,by simp⟩
  | cons e es ih =>
    rw [List.foldlM_cons,bind_eq_ok] at h
    obtain ⟨mid,hmid,h⟩ := h
    simp only [checkEffect,bind_eq_ok,onlyIf_eq_ok,require_eq_ok,pure_eq_ok] at hmid
    obtain ⟨_,hsep,_,hrem,rfl⟩ := hmid
    have hrest := ih h
    refine ⟨fun i => ?_,fun hs => ?_,fun hr => ?_⟩
    · rw [hrest.visited]
      simp only [List.mem_cons,List.map_cons]
      tauto
    · obtain ⟨hn,hnot⟩ := hrest.distinct hs
      refine ⟨List.nodup_cons.mpr ⟨?_,hn⟩,?_⟩
      · intro hmem
        obtain ⟨e',he',heq⟩ := List.mem_map.mp hmem
        exact (hnot e' he').1 (by simp [heq])
      · intro e' he'
        rcases List.mem_cons.mp he' with rfl | he'
        · exact hsep hs
        · exact ⟨fun hm => (hnot e' he').1 (List.mem_cons_of_mem _ hm),(hnot e' he').2⟩
    · intro e' he'
      rcases List.mem_cons.mp he' with rfl | he'
      · exact hrem hr
      · exact hrest.kept hr e' he'

structure Admitted (s : Session J) (independent : Bool) (action : Action) (p : Prefix)
    (rows : List (Record J × List (Effect J))) : Prop where
  sequences : rows.map (fun row => row.1.sourceSequence) = List.range' (p.sequence + 1) rows.length
  ids : (rows.map fun row => row.1.operationId).Nodup
  fresh : ∀ row ∈ rows, row.1.operationId ∉ p.operationIds ∧ row.1.operationId ∉ s.localIndex.operations
  distinct : Separate s independent → ((rows.flatMap Prod.snd).map Effect.identityHash).Nodup ∧
    ∀ row ∈ rows, ∀ e ∈ row.2, e.identityHash ∉ p.seen ∧ e.identityHash ∉ s.localIndex.touched
  kept : Removes s action → ∀ row ∈ rows, ∀ e ∈ row.2, e.identityHash ∉ s.localIndex.desired

theorem checkRecords_ok {rows : List (Record J × List (Effect J))} {p p' : Prefix}
    (h : rows.foldlM (checkRecord env s independent action) p = .ok p') :
    p'.sequence = p.sequence + rows.length ∧ Admitted s independent action p rows := by
  induction rows generalizing p with
  | nil =>
    cases h
    exact ⟨rfl,rfl,by simp,by simp,by simp,by simp⟩
  | cons row rows ih =>
    rw [List.foldlM_cons,bind_eq_ok] at h
    obtain ⟨mid,hmid,h⟩ := h
    simp only [checkRecord,bind_eq_ok,require_eq_ok,pure_eq_ok] at hmid
    obtain ⟨_,hfresh,_,⟨_,_,hseq⟩,_,_,seen,hseen,rfl⟩ := hmid
    obtain ⟨hlast,hrest⟩ := ih h
    have hes := checkEffects_ok hseen
    refine ⟨?_,?_,?_,?_,fun hs => ?_,fun hr => ?_⟩
    · rw [hlast]
      simp only [List.length_cons]
      omega
    · rw [List.map_cons,hrest.sequences,List.length_cons,List.range'_succ,hseq]
    · rw [List.map_cons,List.nodup_cons]
      refine ⟨fun hmem => ?_,hrest.ids⟩
      obtain ⟨row',hrow',heq⟩ := List.mem_map.mp hmem
      exact (hrest.fresh row' hrow').1 (by simp [heq])
    · intro row' hrow'
      rcases List.mem_cons.mp hrow' with rfl | hrow'
      · exact hfresh
      · exact ⟨fun hm => (hrest.fresh row' hrow').1 (List.mem_cons_of_mem _ hm),(hrest.fresh row' hrow').2⟩
    · obtain ⟨hn,hnot⟩ := hes.distinct hs
      obtain ⟨hn',hnot'⟩ := hrest.distinct hs
      refine ⟨?_,?_⟩
      · rw [List.flatMap_cons,List.map_append,List.nodup_append]
        refine ⟨hn,hn',?_⟩
        rintro i hi j hj rfl
        obtain ⟨e,he,rfl⟩ := List.mem_map.mp hj
        obtain ⟨row',hrow',he⟩ := List.mem_flatMap.mp he
        exact (hnot' row' hrow' e he).1 ((hes.visited _).mpr (.inr hi))
      · intro row' hrow' e he
        rcases List.mem_cons.mp hrow' with rfl | hrow'
        · exact hnot e he
        · exact ⟨fun hm => (hnot' row' hrow' e he).1 ((hes.visited _).mpr (.inl hm)),(hnot' row' hrow' e he).2⟩
    · intro row' hrow' e he
      rcases List.mem_cons.mp hrow' with rfl | hrow'
      · exact hes.kept hr e he
      · exact hrest.kept hr row' hrow' e he

structure Prepared [DecidableEq J] (env : Env J) (batch : PreparedBatch J) (store : J) (independent : Bool)
    (s : Session J) (c : ControlRow J) (projected : List (List (Effect J))) : Prop where
  phase : c.phase = .running
  nonempty : 0 < batch.records.length
  hash : batch.batchId = env.batchHash s.scope.logicalRunId batch.action batch.operationIds
  unblocked : s.head.blocked = false
  length : projected.length = batch.records.length
  projection : ∀ es ∈ projected, ∃ identities, effects env identities false = .ok es
  admitted : Admitted s independent batch.action ⟨c.nextSequence,[],[]⟩ (batch.records.zip projected)
  mirror : s.scope.mode = .mirror →
    checkMirror s batch.action projected = .ok () ∧ Extracts env batch.records projected

def prepareDraft (env : Env J) (batch : PreparedBatch J) (store : J) (s : Session J) (c : ControlRow J)
    (projected : List (List (Effect J))) : Draft J :=
  let sequence := c.nextSequence + batch.records.length
  let head := prepareHead env s.scope batch projected sequence
  { edit := .append head
    changes := { nextSequence := some sequence, store := some store }
    after := index env head ⟨batch,projected⟩ none }

variable {batch : PreparedBatch J} {store : J} {c : ControlRow J} {d : Draft J}
  {projected : List (List (Effect J))}

theorem prepare_ok [DecidableEq J] (h : prepare env batch store independent s c = .ok d) :
    ∃ projected, Prepared env batch store independent s c projected ∧
      d = prepareDraft env batch store s c projected := by
  simp only [prepare,bind_eq_ok,require_eq_ok,onlyIf_eq_ok,pure_eq_ok,encodeJson] at h
  obtain ⟨_,hphase,_,⟨hn,_⟩,_,_,_,⟨_,hid⟩,_,hopen,projected,hproj,_,_,checked,hrec,_,hmir,_,_,_,_,_,hext,
    _,⟨_,_,rfl⟩,rfl⟩ := h
  have hlen := mapM_length hproj
  obtain ⟨hlast,hadm⟩ := checkRecords_ok hrec
  have hseq : checked.sequence = c.nextSequence + batch.records.length := by
    simpa [hlen] using hlast
  refine ⟨projected,⟨hphase,hn,hid,hopen,hlen,?_,hadm,fun hm => ⟨hmir hm,hext hm⟩⟩,?_⟩
  · intro es hes
    obtain ⟨record,_,he⟩ := mapM_mem hproj hes
    obtain ⟨identities,_,he⟩ := bind_eq_ok.mp he
    exact ⟨identities,he⟩
  · rw [prepareDraft,← hseq]

namespace Prepared

variable [DecidableEq J] (h : Prepared env batch store independent s c projected)
include h

theorem zip_length : (batch.records.zip projected).length = batch.records.length := by
  simp [h.length]

theorem map_record {α : Type} (f : Record J → α) :
    (batch.records.zip projected).map (fun row => f row.1) = batch.records.map f := by
  have hzip : (batch.records.zip projected).map Prod.fst = batch.records := List.map_fst_zip h.length.ge
  nth_rewrite 2 [← hzip]
  rw [List.map_map]
  rfl

theorem sequences :
    batch.records.map Record.sourceSequence = List.range' (c.nextSequence + 1) batch.records.length := by
  rw [← h.map_record,h.admitted.sequences,h.zip_length]

theorem ids : batch.operationIds.Nodup := by
  have := h.admitted.ids
  rwa [h.map_record] at this

theorem fresh {id : String} (hid : id ∈ batch.operationIds) : id ∉ s.localIndex.operations := by
  rw [PreparedBatch.operationIds,← h.map_record] at hid
  obtain ⟨row,hrow,rfl⟩ := List.mem_map.mp hid
  exact (h.admitted.fresh row hrow).2

theorem contents : (prepareHead env s.scope batch projected
    (c.nextSequence + batch.records.length)).contents env = ⟨batch,projected⟩ := by
  rcases hm : s.scope.mode with _ | _
  · simp [prepareHead,BatchHead.contents,hm,putArtifact]
  · have hext := (h.mirror hm).2
    have hmap : batch.records.map (fun record => (env.asEffect record.row).toList) = projected := by
      have hzip : (batch.records.zip projected).map Prod.snd = projected := List.map_snd_zip h.length.le
      refine Eq.trans ?_ hzip
      rw [← h.map_record]
      apply List.map_congr_left
      intro row hrow
      obtain ⟨e,he,hes⟩ := hext row hrow
      rw [hes,Option.mem_def.mp he]
      rfl
    simp [prepareHead,BatchHead.contents,hm,putArtifact,hmap]

theorem size : (prepareHead env s.scope batch projected
    (c.nextSequence + batch.records.length)).size = batch.records.length := by
  have := h.nonempty
  simp only [prepareHead,BatchHead.size]
  omega

theorem batchInv : BatchInv env s.scope.mode s.scope.logicalRunId
    (prepareHead env s.scope batch projected (c.nextSequence + batch.records.length)) := by
  have hpos := h.nonempty
  have hc := h.contents
  constructor
  case stored => rcases hm : s.scope.mode with _ | _ <;> simp [prepareHead,hm,putArtifact]
  case named => rw [hc]; rfl
  case action => rw [hc]; rfl
  case hash => rw [hc]; exact h.hash
  case positive => simp only [prepareHead]; omega
  case nonempty => simp only [prepareHead]; omega
  case sequences =>
    rw [hc,h.size,h.sequences]
    simp only [prepareHead]
    congr 1
    omega
  case operations => rw [hc]; exact h.ids
  case projected => rw [hc]; exact h.length
  case distinct =>
    rw [hc]
    intro es hes
    obtain ⟨identities,he⟩ := h.projection es hes
    exact effects_nodup he
  case hashed =>
    rw [hc]
    intro es hes e he
    obtain ⟨identities,hi⟩ := h.projection es hes
    exact effects_hashed hi he
  case receipt => simp [prepareHead,BatchHead.receiptData]
  case settled => exact .outstanding rfl rfl rfl rfl rfl rfl
  case submitted => simp [prepareHead,BatchHead.submitted]

theorem unblocked_status {b : BatchHead J} (hb : b ∈ s.head.batches) :
    b.status.outstanding = false ∧ b.rejected = 0 := by
  have hu := h.unblocked
  simp only [ArtifactHead.blocked,List.any_eq_false,Bool.or_eq_true,decide_eq_true_eq,not_or] at hu
  obtain ⟨h₁,h₂⟩ := hu b hb
  exact ⟨by simpa using h₁,by omega⟩

theorem fresh_operations (hl : Indexed env s.head s.localIndex) {id : String}
    (hid : id ∈ batch.operationIds) : id ∉ (s.head.operations env).map Operation.id := by
  intro hmem
  obtain ⟨op,hop,rfl⟩ := List.mem_map.mp hmem
  exact h.fresh hid (hl.mem_operations hop)

theorem extends_head (hl : Indexed env s.head s.localIndex) :
    Extends env s.head ((prepareDraft env batch store s c projected).edit.apply s.head)
    (prepareHead env s.scope batch projected (c.nextSequence + batch.records.length)) where
  baseline := rfl
  snapshot := rfl
  mem := List.mem_append_right _ (List.mem_singleton.mpr rfl)
  operations := by
    intro op
    simp only [prepareDraft,HeadEdit.apply,ArtifactHead.operations,List.flatMap_append,
      List.flatMap_singleton,List.mem_append]
    rw [or_comm]
    refine or_congr_right ⟨fun hop => ⟨hop,fun o ho he => ?_⟩,fun hop => hop.1⟩
    have hid : o.id ∈ batch.operationIds := by
      have hmap := h.batchInv.map_id
      rw [h.contents] at hmap
      rw [← hmap]
      exact List.mem_map_of_mem ho
    exact h.fresh_operations hl hid (he ▸ List.mem_map_of_mem hop)
  kept := by
    intro op hop
    refine ⟨op,?_,rfl,rfl,rfl,fun ha => ⟨ha,fun _ => rfl⟩⟩
    simp only [prepareDraft,HeadEdit.apply,ArtifactHead.operations,List.flatMap_append,List.mem_append]
    exact .inl hop

variable {base : ℕ} (hi : HeadInv env s.scope.mode base c.nextSequence s.head)
  (hl : Indexed env s.head s.localIndex) (hrun : s.head.runId = s.scope.logicalRunId)
include hi hl hrun

theorem headInv : HeadInv env s.scope.mode base (c.nextSequence + batch.records.length)
    ((prepareDraft env batch store s c projected).edit.apply s.head) := by
  have hc := h.contents
  refine hi.append (b := prepareHead env s.scope batch projected (c.nextSequence + batch.records.length))
    ?_ ?_ (fun b hb => (h.unblocked_status hb).1) ?_
  · rw [hrun]
    exact h.batchInv
  · have := h.nonempty
    simp only [prepareHead]
    omega
  · rw [hc]
    exact fun id hid => h.fresh_operations hl hid

theorem indexed (hr : s.head.replaced = false) :
    ∃ l, (prepareDraft env batch store s c projected).after s.localIndex = .ok l ∧
      Indexed env ((prepareDraft env batch store s c projected).edit.apply s.head) l := by
  obtain ⟨l,hops,hidx⟩ := hl.extend (h.headInv hi hl hrun) (h.extends_head hl) hr
  refine ⟨l,?_,hidx⟩
  have heq := index_eq h.batchInv s.localIndex
  rw [h.contents] at heq
  exact heq.trans hops

end Prepared

end Jitsu.ReverseEtl
