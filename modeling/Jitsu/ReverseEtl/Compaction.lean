import Jitsu.ReverseEtl.Admission

namespace Jitsu.ReverseEtl
open Checked Std

variable {J : Type}

def LocalIndex.applyStaged (l : LocalIndex J) (result : BatchResult J) (row : Record J × List (Effect J)) :
    LocalIndex J :=
  if outcomeOf result.outcomes row.1.operationId = some .staged then
    row.2.foldl (fun l effect => l.apply effect .upsert row.1.sourceSequence 0 true) l
  else l

def retainStaged (env : Env J) (mode : Mode) (l : LocalIndex J) (b : BatchHead J) :
    Except Failure (LocalIndex J) := do
  let data ← batchData env mode b
  match b.receiptData with
  | none => throw (.artifact "Reverse ETL recovery artifact is missing or corrupt; delivery blocked")
  | some receipt => pure ((data.batch.records.zip data.effects).foldl (·.applyStaged receipt.result) l)

def LocalIndex.markUncertain (l : LocalIndex J) : LocalIndex J :=
  { l with members := l.members.map fun _ m => { m with uncertain := true } }

def ArtifactHead.unsettled (h : ArtifactHead J) : Bool :=
  h.batches.any (0 < ·.staged) || (h.isNative && !h.replaced)

def compactIndex (env : Env J) (mode : Mode) (h : ArtifactHead J) (l : LocalIndex J) :
    Except Failure (LocalIndex J) := do
  require (∀ b ∈ h.batches, b.status.outstanding = false) "Unresolved artifact batches require recovery"
  let l ← (h.batches.filter (0 < ·.staged)).foldlM (retainStaged env mode) l
  pure (if h.unsettled then l.markUncertain else l)

def compactHead (env : Env J) (runId : String) (l : LocalIndex J) : Except Failure (ArtifactHead J) := do
  let pages ← l.memberPages env
  pure
    { runId := runId
      baseline := pages.map fun page => putArtifact (arrayBytes (page.map env.memberBytes)) page
      snapshot := none
      batches := [] }

def LocalIndex.retained (l : LocalIndex J) : LocalIndex J :=
  { sourceKeys := l.sourceKeys
    desired := ∅
    members := (l.members.filter fun _ m => m.value.isSome).map fun _ m => { m with sequence := 0 }
    operations := ∅
    touched := ∅ }

def emptyHead (runId : String) : ArtifactHead J := ⟨runId,[],none,[]⟩

structure Carried (env : Env J) (row : ControlRow J) (h : ArtifactHead J) : Prop where
  phase : row.phase = .new
  detached : row.detached = false
  level : row.nextSequence = row.baseSequence ∧ row.checkpointSequence = row.baseSequence
  finish : row.finishSequence = none
  foreign : h.runId ≠ row.runId
  previous : ∃ p, RunInv env p h ∧ p.mode = row.mode

def RowInv (env : Env J) (row : ControlRow J) : Prop :=
  ∀ h, row.artifactHead = some h → RunInv env row h ∨ Carried env row h

variable {env : Env J} {h : ArtifactHead J} {l l' : LocalIndex J} {mode : Mode} {base next : ℕ}

theorem emptyHead_inv {runId : String} : HeadInv env mode base base (emptyHead runId : ArtifactHead J) where
  tiles := rfl
  batches := by simp [emptyHead]
  ids := by simp [emptyHead,ArtifactHead.operations]
  batchIds := by simp [emptyHead]
  settled := by simp [emptyHead]
  baseline := by simp [emptyHead,ArtifactHead.members]
  distinct := by simp [emptyHead,ArtifactHead.desired,ArtifactHead.parts,ArtifactHead.isSealed]
  hashed := by simp [emptyHead,ArtifactHead.desired,ArtifactHead.parts,ArtifactHead.isSealed]
  replaced := by simp [emptyHead,ArtifactHead.replaced]

theorem HeadInv.rebase (hi : HeadInv env mode base next h) (hb : h.batches = []) (n : ℕ) :
    HeadInv env mode n n h where
  tiles := by rw [hb]; rfl
  batches := hi.batches
  ids := hi.ids
  batchIds := hi.batchIds
  settled := hi.settled
  baseline := hi.baseline
  distinct := hi.distinct
  hashed := hi.hashed
  replaced := hi.replaced

variable {row : ControlRow J}

theorem RunInv.fresh_run (hrun : h.runId = row.runId)
    (hi : HeadInv env row.mode row.baseSequence row.nextSequence h) (hphase : row.phase = .new)
    (hlevel : row.nextSequence = row.baseSequence ∧ row.checkpointSequence = row.baseSequence)
    (hfinish : row.finishSequence = none) (hb : h.batches = []) (hr : h.replaced = false)
    (hs : row.mode = .upsert → h.snapshot = none) : RunInv env row h where
  run := hrun
  head := hi
  checkpoint := by omega
  fresh := fun _ => ⟨hb,hlevel.2⟩
  replaced := by
    intro hrep
    exact absurd (hr.symm.trans hrep) (by simp)
  upsert := hs
  mirror := fun _ => MirrorInv.of_batches hb
  complete := by simp [hphase]
  finish := by simp [hfinish]

theorem RunInv.congr {row' : ControlRow J} (hr : RunInv env row h) (hid : row'.runId = row.runId)
    (hmode : row'.mode = row.mode) (hphase : row'.phase = row.phase)
    (hbase : row'.baseSequence = row.baseSequence) (hnext : row'.nextSequence = row.nextSequence)
    (hcheck : row'.checkpointSequence = row.checkpointSequence)
    (hfinish : row'.finishSequence = row.finishSequence) : RunInv env row' h := by
  constructor
  all_goals simp only [hid,hmode,hphase,hbase,hnext,hcheck,hfinish]
  exacts [hr.run,hr.head,hr.checkpoint,hr.fresh,hr.replaced,hr.upsert,hr.mirror,hr.complete,hr.finish]

theorem RunInv.unfinished (hr : RunInv env row h) (hp : row.phase.finishing = false) :
    row.finishSequence = none := by
  rcases hf : row.finishSequence with _ | n
  · rfl
  · have := hr.finish (by simp [hf])
    exact absurd (hp.symm.trans this) (by simp)

theorem RunInv.unreplaced (hr : RunInv env row h) (hp : row.phase.finishing = false) :
    h.replaced = false := by
  rcases hrep : h.replaced with _ | _
  · rfl
  · rcases hr.replaced hrep with he | he <;> rw [he] at hp <;> cases hp

section Open

variable {run : RunInput} {sameRun : Bool} {store : Option J} {control : ControlRow J}

theorem RunInv.restart (hr : RunInv env control h) (hp : control.phase = .new) :
    RunInv env (reopened run true base store control) h := by
  have hfin : control.phase.finishing = false := by rw [hp]; rfl
  have hb := (hr.fresh (.inl hp)).1
  refine RunInv.fresh_run hr.run ?_ hp ?_ (hr.unfinished hfin) hb (hr.unreplaced hfin) hr.upsert
  · simpa [reopened,hp] using hr.head.rebase hb base
  · simp [reopened,hp]

theorem Carried.restart (hc : Carried env control h) :
    Carried env (reopened run true base store control) h where
  phase := hc.phase
  detached := hc.detached
  level := by simp [reopened,hc.phase]
  finish := hc.finish
  foreign := hc.foreign
  previous := hc.previous

theorem RunInv.resume (hr : RunInv env control h) (hp : control.phase ≠ .new) :
    RunInv env (reopened run true base store control) h := by
  apply hr.congr <;> simp [reopened,hp]

theorem RunInv.reopen (hr : RunInv env control h) (base : ℕ) (store : Option J) :
    RunInv env (reopened run true base store control) h := by
  by_cases hp : control.phase = .new
  · exact hr.restart hp
  · exact hr.resume hp

theorem RowInv.reopen (hr : RowInv env control) : RowInv env (reopened run true base store control) :=
  fun h hh => (hr h hh).imp (fun hr => hr.reopen base store) Carried.restart

variable {db db' : Db J} {recovery : Bool} {row : ControlRow J}

theorem RowInv.first (hprev : db.previous run = none) :
    RowInv env (reopened run false base store
      (newControl env run (emptyHead run.logicalRunId) (db.previous run))) := by
  intro h hh
  obtain rfl : emptyHead run.logicalRunId = h := by simpa [reopened,newControl,hprev] using hh
  exact .inl (RunInv.fresh_run rfl emptyHead_inv rfl ⟨rfl,rfl⟩ rfl rfl rfl fun _ => rfl)

theorem Db.not_blocked (hb : db.blocked run = false) {r : ControlRow J} (hr : r ∈ db.controls)
    (ho : run.owns r) (hd : r.detached = false) : r.phase.terminal = true := by
  have := List.any_eq_false.mp hb r hr
  simpa [ho,hd] using this

theorem RowInv.successor {p : ControlRow J} {initialHead : ArtifactHead J} (hp : RowInv env p)
    (hprev : db.previous run = some p) (hhead : p.artifactHead.isSome = true) (hmode : p.mode = run.mode)
    (hb : db.blocked run = false) (hnone : db.control run.key = none) :
    RowInv env (reopened run false base store (newControl env run initialHead (db.previous run))) := by
  obtain ⟨hmem,howns⟩ := Db.previous_mem hprev
  obtain ⟨h,hh⟩ := Option.isSome_iff_exists.mp hhead
  intro h' hh'
  obtain rfl : h = h' := by simpa [reopened,newControl,hprev,hh] using hh'
  rcases hp h hh with hr | hc
  · refine .inr ⟨rfl,rfl,⟨rfl,rfl⟩,rfl,?_,p,hr,hmode⟩
    rw [hr.run]
    intro hid
    refine Db.control_eq_none.mp hnone p hmem ?_
    simp only [ControlRow.key,RunInput.key,howns.1,howns.2]
    exact congrArg (fun id => [run.workspaceId,run.syncId,id]) hid
  · have hterm := Db.not_blocked hb hmem howns hc.detached
    rw [hc.phase] at hterm
    cases hterm

theorem Opened.rowInv (ho : Opened env run (emptyHead run.logicalRunId) db db' recovery control row)
    (hdb : ∀ r ∈ db.controls, run.owns r → RowInv env r) : RowInv env row := by
  obtain ⟨base,store,rfl⟩ := ho.updated
  rw [ho.selected]
  rcases hc : db.control run.key with _ | c
  · obtain hp | ⟨p,hp⟩ := Option.eq_none_or_eq_some (db.previous run)
    · exact RowInv.first hp
    · obtain ⟨hmem,howns⟩ := Db.previous_mem hp
      obtain ⟨hhead,_,_,hmode⟩ := ho.previous p hp
      exact (hdb p hmem howns).successor hp hhead hmode (ho.unblocked hc) hc
  · obtain ⟨hmem,hkey⟩ := Db.control_mem hc
    exact (hdb c hmem (run.owns_of_key hkey)).reopen

theorem Opened.rows (ho : Opened env run (emptyHead run.logicalRunId) db db' recovery control row)
    (hdb : ∀ r ∈ db.controls, run.owns r → RowInv env r) :
    ∀ r ∈ db'.controls, run.owns r → RowInv env r := by
  intro r hr howns
  rcases ho.mem hr with rfl | ⟨hr,_⟩
  · exact ho.rowInv hdb
  · exact hdb r hr howns

end Open

section Index

structure MemberRow.Sound (m : MemberRow J) (i : String) : Prop where
  hashed : i ≠ ""
  payload : m.payload = m.value.map Effect.payloadHash
  identity : ∀ e ∈ m.value, e.identityHash = i

def LocalIndex.Sound (l : LocalIndex J) : Prop :=
  ∀ (i : String) (m : MemberRow J), l.members[i]? = some m → m.Sound i

theorem memberRow_sound {e : Effect J} {action : Action} {n t : ℕ} {u : Bool} (he : e.identityHash ≠ "") :
    (LocalIndex.memberRow e action n t u).Sound e.identityHash := by
  cases action <;> exact ⟨he,rfl,by simp [LocalIndex.memberRow]⟩

theorem Indexed.sound (hl : Indexed env h l) (hi : HeadInv env mode base next h) : l.Sound := by
  intro i m hm
  rcases hl.cases hm with ⟨b,hb,rfl,rfl⟩ | ⟨op,hop,_,e,he,rfl,rfl⟩
  · exact memberRow_sound (hi.baseline b hb)
  · exact memberRow_sound (hi.effects_hashed hop he)

theorem LocalIndex.Sound.apply (hl : l.Sound) {e : Effect J} {action : Action} {n t : ℕ} {u : Bool}
    (he : e.identityHash ≠ "") : (l.apply e action n t u).Sound := by
  intro i m hm
  rw [apply_members,offerMember_getElem?] at hm
  split at hm
  · rename_i hi
    subst hi
    unfold LastWriter.offer at hm
    split at hm
    · cases hm
      exact memberRow_sound he
    · split at hm
      · cases hm
        exact memberRow_sound he
      · rename_i w hw _
        cases hm
        exact hl _ _ hw
  · exact hl i m hm

theorem LocalIndex.Sound.applyStaged (hl : l.Sound) {r : BatchResult J} {row : Record J × List (Effect J)}
    (he : ∀ e ∈ row.2, e.identityHash ≠ "") : (l.applyStaged r row).Sound := by
  unfold LocalIndex.applyStaged
  split
  · exact List.foldlRecOn row.2 _ hl fun l hl e hmem => hl.apply (he e hmem)
  · exact hl

theorem retainStaged_sound {b : BatchHead J} {runId : String} (hb : BatchInv env mode runId b) (hl : l.Sound)
    (h : retainStaged env mode l b = .ok l') : l'.Sound := by
  rw [retainStaged,batchData_ok hb,ok_bind] at h
  split at h
  · simp at h
  · simp only [pure_eq_ok] at h
    subst h
    refine List.foldlRecOn _ _ hl fun l hl row hrow => hl.applyStaged fun e he => ?_
    exact hb.hashed row.2 (List.of_mem_zip hrow).2 e he

theorem LocalIndex.markUncertain_getElem? {i : String} :
    l.markUncertain.members[i]? = (l.members[i]?).map fun m => { m with uncertain := true } := by
  rw [markUncertain,ExtTreeMap.getElem?_map]

theorem LocalIndex.Sound.markUncertain (hl : l.Sound) : l.markUncertain.Sound := by
  intro i m hm
  rw [markUncertain_getElem?,Option.map_eq_some_iff] at hm
  obtain ⟨m',hm',rfl⟩ := hm
  exact ⟨(hl i m' hm').hashed,(hl i m' hm').payload,(hl i m' hm').identity⟩

theorem compactIndex_sound (hi : HeadInv env mode base next h) (hl : l.Sound)
    (hc : compactIndex env mode h l = .ok l') : l'.Sound := by
  simp only [compactIndex,bind_eq_ok,pure_eq_ok] at hc
  obtain ⟨_,_,k,hk,rfl⟩ := hc
  have hsound : k.Sound := by
    refine foldlM_ok (I := LocalIndex.Sound) ?_ hl hk
    intro b hb l l' hl hr
    exact retainStaged_sound (hi.batches b (List.mem_of_mem_filter hb)) hl hr
  split
  · exact hsound.markUncertain
  · exact hsound

theorem mem_memberValues {m : Member J} : m ∈ l.memberValues ↔
    ∃ (i : String) (r : MemberRow J), l.members[i]? = some r ∧ r.value = some m.effect ∧
      r.acceptedAt = m.acceptedAt ∧ r.uncertain = m.uncertain := by
  simp only [LocalIndex.memberValues,List.mem_filterMap,Prod.exists,
    ExtTreeMap.mem_toList_iff_getElem?_eq_some,Option.map_eq_some_iff]
  constructor
  · rintro ⟨i,r,hr,e,he,rfl⟩
    exact ⟨i,r,hr,he,rfl,rfl⟩
  · rintro ⟨i,r,hr,he,ha,hu⟩
    exact ⟨i,r,hr,m.effect,he,by rw [ha,hu]⟩

theorem LocalIndex.retained_getElem? {i : String} : l.retained.members[i]? =
    (l.members[i]?).bind fun m => if m.value.isSome then some { m with sequence := 0 } else none := by
  rw [retained,ExtTreeMap.getElem?_map,ExtTreeMap.getElem?_filter']
  rcases l.members[i]? with _ | m
  · rfl
  · cases hv : m.value <;> simp [hv]

theorem memberValues_find? (hl : l.Sound) {i : String} :
    (l.memberValues.find? (·.effect.identityHash = i)).map LocalIndex.baselineRow =
      l.retained.members[i]? := by
  rw [LocalIndex.retained_getElem?]
  rcases hf : l.memberValues.find? (·.effect.identityHash = i) with _ | m
  · rw [hf]
    rcases hm : l.members[i]? with _ | r
    · rfl
    · rcases hv : r.value with _ | e
      · simp [hv]
      · have hnone := List.find?_eq_none.mp hf ⟨e,r.acceptedAt,r.uncertain⟩
          (mem_memberValues.mpr ⟨i,r,hm,hv,rfl,rfl⟩)
        simp [(hl i r hm).identity e hv] at hnone
  · obtain ⟨j,r,hr,hv,ha,hu⟩ := mem_memberValues.mp (List.mem_of_find?_eq_some hf)
    have hi : m.effect.identityHash = i := by simpa using List.find?_some hf
    have hj := (hl j r hr).identity m.effect hv
    rw [hi] at hj
    subst hj
    have hpay := (hl i r hr).payload
    rw [hv,Option.map_some] at hpay
    rw [hf,hr,Option.map_some,Option.bind_some,hv,Option.isSome_some,if_pos rfl]
    simp [LocalIndex.baselineRow,LocalIndex.memberRow,← ha,← hu,hpay]

end Index

section Baseline

variable {runId : String} {h' : ArtifactHead J}

structure Compacted (runId : String) (l : LocalIndex J) (h : ArtifactHead J) : Prop where
  run : h.runId = runId
  members : h.members = l.memberValues
  snapshot : h.snapshot = none
  batches : h.batches = []

theorem compactHead_ok (hc : compactHead env runId l = .ok h) : Compacted runId l h := by
  simp only [compactHead,bind_eq_ok,pure_eq_ok] at hc
  obtain ⟨pages,hpages,rfl⟩ := hc
  have hflat := LocalIndex.artifactPages_flatten hpages
  refine ⟨rfl,?_,rfl,rfl⟩
  simpa [ArtifactHead.members,List.flatMap_def,Function.comp_def,putArtifact] using hflat

namespace Compacted

variable (hc : Compacted runId l h)
include hc

theorem desired : h.desired = [] := by
  simp [ArtifactHead.desired,ArtifactHead.parts,ArtifactHead.isSealed,hc.snapshot]

theorem operations : h.operations env = [] := by simp [ArtifactHead.operations,hc.batches]

theorem replaced : h.replaced = false := by simp [ArtifactHead.replaced,hc.snapshot]

theorem headInv (hl : l.Sound) : HeadInv env mode base base h where
  tiles := by rw [hc.batches]; rfl
  batches := by simp [hc.batches]
  ids := by simp [hc.operations]
  batchIds := by simp [hc.batches]
  settled := by simp [hc.batches]
  baseline := by
    intro m hm
    rw [hc.members] at hm
    obtain ⟨i,r,hr,hv,_,_⟩ := mem_memberValues.mp hm
    rw [(hl i r hr).identity m.effect hv]
    exact (hl i r hr).hashed
  distinct := by simp [hc.desired]
  hashed := by simp [hc.desired]
  replaced := by simp [hc.replaced]

theorem indexed (hl : l.Sound) : Indexed env h l.retained where
  members := by
    intro i _
    refine .inl ⟨by rw [hc.operations,writes_nil],?_⟩
    rw [ArtifactHead.baselineEntry,hc.members,memberValues_find? hl]
  pruned := by
    intro i hp
    exact absurd (hc.replaced.symm.trans hp.1) (by simp)
  touched := by simp [hc.operations,LocalIndex.retained]
  sequences := by simp [hc.operations,LocalIndex.retained,operationEntry]
  accepted := by simp [hc.operations,LocalIndex.retained,operationEntry]
  desired := by simp [ArtifactHead.isSealed,hc.snapshot]
  keyed := by
    intro i d hd
    simp [LocalIndex.retained] at hd
  hashed := by simp [LocalIndex.retained]

end Compacted

theorem Carried.compact {row : ControlRow J} {index : LocalIndex J} (hc : Carried env row h)
    (hl : restore env row.mode h = .ok l) (hi : compactIndex env row.mode h l = .ok index)
    (hh : compactHead env row.runId index = .ok h') :
    RunInv env { row with artifactHead := some h' } h' ∧ Indexed env h' index.retained := by
  obtain ⟨p,hp,hmode⟩ := hc.previous
  obtain ⟨l',hl',hidx⟩ := restore_indexed hp.head
  rw [hmode,hl,Except.ok.injEq] at hl'
  subst hl'
  have hsound : index.Sound := compactIndex_sound (hmode ▸ hp.head) (hidx.sound hp.head) hi
  have hcomp := compactHead_ok hh
  refine ⟨RunInv.fresh_run hcomp.run ?_ hc.phase hc.level hc.finish hcomp.batches hcomp.replaced
    fun _ => hcomp.snapshot,hcomp.indexed hsound⟩
  rw [hc.level.1]
  exact hcomp.headInv hsound

end Baseline

section Session

variable {scope : Scope} {project : Project J} {row : ControlRow J}

def Session.closed (scope : Scope) (project : Project J) : Session J where
  scope := scope
  project := project
  recovered := false
  head := emptyHead scope.logicalRunId
  headBytes := none
  localIndex := .create
  pending := none
  broken := true

def openSession (scope : Scope) (project : Project J) (recovered : Bool) (h : ArtifactHead J)
    (l : LocalIndex J) : Session J where
  scope := scope
  project := project
  recovered := recovered
  head := h
  headBytes := some h
  localIndex := l
  pending := none
  broken := false

theorem RunInv.view (hm : Matches env scope row) (hh : row.artifactHead = some h) (hr : RunInv env row h)
    (hl : Indexed env h l) {recovered : Bool} {saved : Option (Envelope J)} :
    ViewInv env ⟨openSession scope project recovered h l,row,saved⟩ where
  scope := hm
  head := hh
  bytes := rfl
  run := hr
  indexed := hl
  pending := by simp [openSession]

end Session

end Jitsu.ReverseEtl
