import Jitsu.ReverseEtl.Preserve

namespace Jitsu.ReverseEtl
open Checked Std

variable {J : Type} {env : Env J} {s : Session J} {c : ControlRow J} {h : ArtifactHead J} {l : LocalIndex J}

theorem mem_desired_of_value (hs : h.isSealed = true) (hl : Indexed env h l) {e : Effect J}
    (he : (l.desired[e.identityHash]?).map DesiredRow.value = some e) : e ∈ h.desired := by
  obtain ⟨d,hd,rfl⟩ := Option.map_eq_some_iff.mp he
  rw [hl.desired hs,ArtifactHead.desiredRow,Option.map_eq_some_iff] at hd
  obtain ⟨e',hf,hrow⟩ := hd
  have : d.value = e' := by rw [← hrow,LocalIndex.desiredRow]
  rw [this]
  exact List.mem_of_find?_eq_some hf

section Prepare

variable [DecidableEq J] {batch : PreparedBatch J} {store : J} {independent : Bool}
  {projected : List (List (Effect J))}

structure MirrorChecked (s : Session J) (action : Action) (projected : List (List (Effect J))) : Prop where
  isSealed : s.head.isSealed = true
  upsert : s.head.isNative = true → action = .upsert
  uploads : s.head.isNative = true → ∀ e ∈ projected.flatten,
    (s.localIndex.desired[e.identityHash]?).map DesiredRow.value = some e
  removals : action = .remove → removalsAllowed s = .ok ()

theorem checkReplacements_ok {es : List (Effect J)} (h : es.foldlM (checkReplacement s) () = .ok ()) :
    ∀ e ∈ es, (s.localIndex.desired[e.identityHash]?).map DesiredRow.value = some e := by
  induction es with
  | nil => simp
  | cons e es ih =>
    rw [List.foldlM_cons,bind_eq_ok] at h
    obtain ⟨_,he,h⟩ := h
    simp only [checkReplacement,bind_eq_ok,require_eq_ok] at he
    obtain ⟨_,he,_⟩ := he
    intro x hx
    rcases List.mem_cons.mp hx with rfl | hx
    · exact he
    · exact ih h x hx

theorem checkMirror_ok {action : Action} (h : checkMirror s action projected = .ok ()) :
    MirrorChecked s action projected := by
  simp only [checkMirror,bind_eq_ok,require_eq_ok,onlyIf_eq_ok] at h
  obtain ⟨_,hs,_,hn,hr⟩ := h
  exact ⟨hs,fun hnat => (hn hnat).choose_spec.1,fun hnat => checkReplacements_ok (hn hnat).choose_spec.2,hr⟩

theorem Prepared.delivered (h : Prepared env batch store independent s c projected) :
    ((prepareHead env s.scope batch projected (c.nextSequence + batch.records.length)).operations env).map
      Operation.delivery = (batch.records.zip projected).map fun row => (batch.action,row.2) := by
  rw [BatchHead.operations,h.contents,operationsOf,List.map_map]
  rfl

theorem Prepared.deliveries (h : Prepared env batch store independent s c projected) :
    ((prepareDraft env batch store s c projected).edit.apply s.head).deliveries env =
      s.head.deliveries env ++ (batch.records.zip projected).map fun row => (batch.action,row.2) := by
  rw [← h.delivered]
  simp only [ArtifactHead.deliveries,ArtifactHead.operations,prepareDraft,HeadEdit.apply,
    List.flatMap_append,List.flatMap_singleton,List.map_append]

theorem Prepared.mirrorInv (h : Prepared env batch store independent s c projected)
    (hmode : s.scope.mode = .mirror) (hm : MirrorInv env s.head) (hl : Indexed env s.head s.localIndex) :
    MirrorInv env ((prepareDraft env batch store s c projected).edit.apply s.head) := by
  have hc := checkMirror_ok (h.mirror hmode).1
  refine ⟨fun hs => ?_,?_,fun hn => ?_,fun hn => ?_⟩
  · exact absurd (hc.isSealed.symm.trans hs) (by simp)
  · rw [h.deliveries]
    intro x hx hrem e he d hd heq
    rcases List.mem_append.mp hx with hx | hx
    · exact hm.removals x hx hrem e he d hd heq
    · obtain ⟨row,hrow,rfl⟩ := List.mem_map.mp hx
      exact h.admitted.kept ⟨hmode,hrem⟩ row hrow e he
        ((mem_desired_iff (hl.desired hc.isSealed)).mpr ⟨d,hd,heq⟩)
  · rw [h.deliveries]
    intro x hx
    rcases List.mem_append.mp hx with hx | hx
    · exact hm.uploads hn x hx
    · obtain ⟨row,hrow,rfl⟩ := List.mem_map.mp hx
      exact ⟨hc.upsert hn,fun e he => mem_desired_of_value hc.isSealed hl (hc.uploads hn e
        (List.mem_flatten.mpr ⟨row.2,(List.of_mem_zip hrow).2,he⟩))⟩
  · obtain ⟨hn',hnot⟩ := h.admitted.distinct (.inr hn)
    rw [h.deliveries,List.flatMap_append,List.map_append,List.nodup_append,List.flatMap_map]
    refine ⟨hm.once hn,hn',?_⟩
    rintro i hi j hj rfl
    obtain ⟨e,he,rfl⟩ := List.mem_map.mp hj
    obtain ⟨row,hrow,he⟩ := List.mem_flatMap.mp he
    obtain ⟨e',he',heq⟩ := List.mem_map.mp hi
    obtain ⟨x,hx,he'⟩ := List.mem_flatMap.mp he'
    obtain ⟨op,hop,rfl⟩ := List.mem_map.mp hx
    exact (hnot row hrow e he).2 ((hl.touched _).mpr ⟨op,hop,e',he',heq⟩)

end Prepare

section Promote

theorem Operation.write_payload {op : Operation J} {e : Effect J} :
    (op.write e).payload = (op.write e).value.map Effect.payloadHash := by
  rw [Operation.write]
  cases op.action <;> rfl

theorem Indexed.cases (hl : Indexed env h l) {i : String} {m : MemberRow J} (hm : l.members[i]? = some m) :
    (∃ b ∈ h.members, b.effect.identityHash = i ∧ m = LocalIndex.baselineRow b) ∨
      ∃ op ∈ h.operations env, op.Accepted ∧ ∃ e ∈ op.effects, e.identityHash = i ∧ m = op.write e := by
  by_cases hp : h.Pruned i
  · rw [hl.pruned i hp] at hm
    cases hm
  · rcases hl.members i hp with ⟨_,hbase⟩ | ⟨w,⟨op,hop,hacc,e,he,hi,hw⟩,hsome,_⟩
    · rw [hm,ArtifactHead.baselineEntry,eq_comm,Option.map_eq_some_iff] at hbase
      obtain ⟨b,hb,rfl⟩ := hbase
      exact .inl ⟨b,List.mem_of_find?_eq_some hb,by simpa using List.find?_some hb,rfl⟩
    · rw [hm,Option.some.injEq] at hsome
      exact .inr ⟨op,hop,hacc,e,he,hi,hsome.trans hw⟩

theorem Indexed.payload_eq (hl : Indexed env h l) {i : String} {m : MemberRow J}
    (hm : l.members[i]? = some m) : m.payload = m.value.map Effect.payloadHash := by
  rcases hl.cases hm with ⟨b,_,_,rfl⟩ | ⟨op,_,_,e,_,_,rfl⟩
  · rfl
  · exact Operation.write_payload

variable {mode : Mode}

theorem Indexed.members_hashed {base next : ℕ} (hl : Indexed env h l)
    (hi : HeadInv env mode base next h) : "" ∉ l.members := by
  intro hmem
  obtain ⟨m,hm⟩ := Option.isSome_iff_exists.mp (ExtTreeMap.mem_iff_isSome_getElem?.mp hmem)
  rcases hl.cases hm with ⟨b,hb,hempty,_⟩ | ⟨op,hop,_,e,he,hempty,_⟩
  · exact hi.baseline b hb hempty
  · exact hi.effects_hashed hop he hempty

structure Current (refreshBefore : Option ℤ) (l : LocalIndex J) (e : Effect J) : Prop where
  member : ∃ m, l.members[e.identityHash]? = some m ∧ m.value ≠ none ∧ m.payload = some e.payloadHash ∧
    m.uncertain = false ∧ ∀ t ∈ refreshBefore, t < m.acceptedAt

theorem needsAddition_false {refreshBefore : Option ℤ} {d : DesiredRow J} {o : Option (MemberRow J)}
    (ho : ∀ m ∈ o, m.payload = m.value.map Effect.payloadHash)
    (hn : LocalIndex.needsAddition refreshBefore d o = false) :
    ∃ m, o = some m ∧ m.value ≠ none ∧ m.payload = some d.payload ∧ m.uncertain = false ∧
      ∀ t ∈ refreshBefore, t < m.acceptedAt := by
  rcases o with _ | m
  · cases hn
  · simp only [LocalIndex.needsAddition,LocalIndex.due,Bool.or_eq_false_iff] at hn
    obtain ⟨⟨hv,hp⟩,hu,hr⟩ := hn
    obtain ⟨e,he⟩ := Option.isSome_iff_exists.mp (by simpa using hv : m.value.isSome = true)
    have hpay := ho m rfl
    rw [he,Option.map_some] at hpay
    refine ⟨m,rfl,by simp [he],?_,hu,?_⟩
    · rw [hpay] at hp ⊢
      simpa using hp
    · intro t ht
      rw [Option.mem_def.mp ht] at hr
      simpa using hr

structure RemovalsAllowed (s : Session J) : Prop where
  isNative : s.head.isNative = false
  isSealed : s.head.isSealed = true
  accepted : ∀ b ∈ s.head.batches, b.action = .upsert → b.accepted = b.size
  current : ∀ e ∈ s.head.desired,
    Current (s.head.snapshot.bind SnapshotHead.refreshBefore) s.localIndex e

theorem Indexed.mem_desired (hl : Indexed env h l) (hs : h.isSealed = true) {base next : ℕ}
    (hi : HeadInv env mode base next h) {e : Effect J} (he : e ∈ h.desired) :
    l.desired[e.identityHash]? = some (LocalIndex.desiredRow e) := by
  rw [hl.desired hs,ArtifactHead.desiredRow,Option.map_eq_some_iff]
  refine ⟨e,?_,rfl⟩
  rcases hf : h.desired.find? (·.identityHash = e.identityHash) with _ | e'
  · simpa using List.find?_eq_none.mp hf e he
  · have heq : e'.identityHash = e.identityHash := by simpa using List.find?_some hf
    rw [hf,List.inj_on_of_nodup_map hi.distinct (List.mem_of_find?_eq_some hf) he heq]

theorem removalsAllowed_ok {base next : ℕ} (hi : HeadInv env mode base next s.head)
    (hl : Indexed env s.head s.localIndex) (hr : removalsAllowed s = .ok ()) : RemovalsAllowed s := by
  simp only [removalsAllowed,bind_eq_ok,require_eq_ok] at hr
  obtain ⟨_,hn,_,hs,_,ha,hpage⟩ := hr
  rw [LocalIndex.page_additions_eq_nil Nat.one_pos hl.hashed] at hpage
  refine ⟨hn,hs,ha,fun e he => ⟨?_⟩⟩
  exact needsAddition_false (fun m hm => hl.payload_eq hm) (hpage _ _ (hl.mem_desired hs hi he))

theorem promoted_of_promotable {base next : ℕ} (hi : HeadInv env mode base next s.head)
    (hl : Indexed env s.head s.localIndex) (hn : s.head.isNative = false) (hp : promotable s = .ok ()) :
    Promoted env s.head := by
  simp only [promotable,hn,Bool.false_eq_true,if_false,bind_eq_ok,require_eq_ok] at hp
  obtain ⟨_,hr,hpage⟩ := hp
  have hallowed := removalsAllowed_ok hi hl hr
  rw [LocalIndex.page_removals_eq_nil Nat.one_pos (hl.members_hashed hi)] at hpage
  intro l hl' i payload
  rw [LocalIndex.Holds,← (hl.unique hi hl').members]
  constructor
  · rintro ⟨m,hm,hv,hpay⟩
    obtain ⟨e,he,rfl⟩ := (mem_desired_iff (hl.desired hallowed.isSealed)).mp (hpage i m hm hv)
    obtain ⟨m',hm',_,hpay',_⟩ := (hallowed.current e he).member
    rw [hm,Option.some.injEq] at hm'
    subst hm'
    exact ⟨e,he,rfl,Option.some.inj (hpay'.symm.trans hpay)⟩
  · rintro ⟨e,he,rfl,rfl⟩
    obtain ⟨m,hm,hv,hpay,_⟩ := (hallowed.current e he).member
    exact ⟨m,hm,hv,hpay⟩

end Promote

end Jitsu.ReverseEtl
