import Jitsu.ReverseEtl.Step

namespace Jitsu.ReverseEtl
open Checked Std

variable {J : Type}

structure Db (J : Type) where
  controls : List (ControlRow J)
  owners : List TargetOwnerRow
  saved : String → Option (Envelope J)

def RunInput.owns (run : RunInput) (row : ControlRow J) : Prop :=
  row.workspaceId = run.workspaceId ∧ row.syncId = run.syncId

instance (run : RunInput) (row : ControlRow J) : Decidable (run.owns row) :=
  inferInstanceAs (Decidable (_ ∧ _))

namespace Db

def control (db : Db J) (key : List String) : Option (ControlRow J) := db.controls.find? (·.key = key)

def update (db : Db J) (row : ControlRow J) : Db J :=
  { db with controls := db.controls.map fun r => if r.key = row.key then row else r }

def insert (db : Db J) (row : ControlRow J) : Db J :=
  if (db.control row.key).isSome then db else { db with controls := db.controls ++ [row] }

def previous (db : Db J) (run : RunInput) : Option (ControlRow J) :=
  ((db.controls.filter fun row => run.owns row).insertionSort fun a b => b.runOrder ≤ a.runOrder).head?

def blocked (db : Db J) (run : RunInput) : Bool :=
  db.controls.any fun row => run.owns row && (!row.detached || run.insertOnly) && !row.phase.terminal

def ownerOf (db : Db J) (target : String) : Option TargetOwnerRow :=
  db.owners.find? (·.targetHash = target)

def claim (db : Db J) (owner : TargetOwnerRow) : Db J :=
  if (db.ownerOf owner.targetHash).isSome then db else { db with owners := db.owners ++ [owner] }

def contended (db : Db J) (run : RunInput) (target : String) : Bool :=
  db.controls.any fun row => row.targetHash = target && !decide (run.owns row) && !row.phase.terminal

end Db

def utf16Length (s : String) : ℕ := (s.toList.map fun c => if c.toNat < 65536 then 1 else 2).sum

def validScope (run : RunInput) : Prop :=
  ∀ value ∈ [run.workspaceId,run.syncId,run.taskId,run.logicalRunId,run.configRevision,run.targetIdentity],
    0 < utf16Length value ∧ utf16Length value ≤ 512

instance (run : RunInput) : Decidable (validScope run) := inferInstanceAs (Decidable (∀ value ∈ _, _))

def SameTarget (env : Env J) (run : RunInput) (row : ControlRow J) : Prop :=
  row.targetHash = env.stringHash run.targetIdentity ∧ row.revision = run.configRevision ∧ row.mode = run.mode

instance (env : Env J) (run : RunInput) (row : ControlRow J) : Decidable (SameTarget env run row) :=
  inferInstanceAs (Decidable (_ ∧ _ ∧ _))

def resetRequired : Failure :=
  .resetRequired "Legacy Reverse ETL state requires an explicit test-sync reset before enabling object storage"

def checkTarget (env : Env J) (run : RunInput) (row : ControlRow J) : Except Failure Unit := do
  ensure (row.artifactHead.isSome = true) resetRequired
  require (SameTarget env run row) "Target/config changes require controlled reset"

def blockedMessage (run : RunInput) : String :=
  if run.insertOnly then "Previous conversion run requires status refresh before new extraction"
  else "Previous logical run requires recovery"

def newControl (env : Env J) (run : RunInput) (initialHead : ArtifactHead J)
    (previous : Option (ControlRow J)) : ControlRow J where
  workspaceId := run.workspaceId
  syncId := run.syncId
  runId := run.logicalRunId
  runOrder := (previous.map ControlRow.runOrder).getD (-1) + 1
  detached := false
  revision := run.configRevision
  targetHash := env.stringHash run.targetIdentity
  phase := .new
  mode := run.mode
  extraction := run.extraction
  artifactHead := some ((previous.bind ControlRow.artifactHead).getD initialHead)
  baseSequence := 0
  nextSequence := 0
  checkpointSequence := 0
  finishSequence := none
  store := none
  providerState := none
  finishResult := none
  committedGeneration := previous.bind ControlRow.committedGeneration

def checkReopened (run : RunInput) (control : ControlRow J) : Except Failure Unit := do
  require (control.phase.terminal = false) "Logical run already ended; use a new run ID"
  require (control.extraction = run.extraction) "Recovery must preserve the original run configuration"

def claimTarget (env : Env J) (run : RunInput) (db : Db J) : Except Failure (Db J) :=
  let target := env.stringHash run.targetIdentity
  match run.mode with
  | .mirror => do
    require (db.contended run target = false) "Audience already belongs to another mirror or upsert sync"
    let db := db.claim ⟨target,run.workspaceId,run.syncId⟩
    require (∃ owner ∈ db.ownerOf target, owner.workspaceId = run.workspaceId ∧ owner.syncId = run.syncId)
      "Audience already belongs to another mirror sync"
    pure db
  | .upsert => do
    require (db.ownerOf target = none) "Audience is exclusively managed by a mirror sync"
    pure db

def savedState (env : Env J) (run : RunInput) (db : Db J) (starting : Prop) [Decidable starting] :
    Except Failure (Option (SavedState J)) :=
  if starting then (db.saved run.syncId).mapM (readSavedState env run) else pure none

def baseOf (run : RunInput) (state : Option (SavedState J)) : ℕ :=
  if run.extraction = .cursor then
    (state.bind fun s => s.point.cursor.map fun _ => s.point.sourceSequence).getD 0
  else 0

def reopened (run : RunInput) (sameRun : Bool) (base : ℕ) (store : Option J) (control : ControlRow J) :
    ControlRow J :=
  let kept := sameRun && control.phase ≠ .new
  { control with
    extraction := run.extraction
    store := if sameRun then control.store else store
    phase := if sameRun then control.phase else .new
    baseSequence := if kept then control.baseSequence else base
    nextSequence := if kept then control.nextSequence else base
    checkpointSequence := if kept then control.checkpointSequence else base
    finishSequence := if sameRun then control.finishSequence else none
    finishResult := if sameRun then control.finishResult else none }

def openRun (env : Env J) (run : RunInput) (initialHead : ArtifactHead J) (db : Db J) :
    Except Failure (Db J × Bool) := do
  require (validScope run) "Invalid run scope"
  require (run.mode = .mirror → run.extraction = .full) "Mirror requires full extraction"
  require (∀ row ∈ db.controls, row.syncId = run.syncId → row.workspaceId = run.workspaceId)
    "Sync belongs to another workspace"
  let previous := db.previous run
  previous.elim (pure ()) (checkTarget env run)
  let sameRun := (db.control run.key).isSome
  onlyIf (sameRun = false) (require (db.blocked run = false) (blockedMessage run))
  let control := (db.control run.key).getD (newControl env run initialHead previous)
  let db := db.insert control
  checkTarget env run control
  onlyIf (sameRun = true) (checkReopened run control)
  let db ← claimTarget env run db
  let state ← savedState env run db (sameRun = false ∨ control.phase = .new)
  let row := reopened run sameRun (baseOf run state) (state.map SavedState.store) control
  pure (db.update row,sameRun && control.phase ≠ .new)

theorem RunInput.owns_of_key {run : RunInput} {row : ControlRow J} (h : row.key = run.key) : run.owns row := by
  simp only [ControlRow.key,RunInput.key,List.cons.injEq] at h
  exact ⟨h.1,h.2.1⟩

namespace Db

variable {db : Db J} {run : RunInput} {row : ControlRow J} {key : List String}

theorem control_mem (h : db.control key = some row) : row ∈ db.controls ∧ row.key = key :=
  ⟨List.mem_of_find?_eq_some h,by simpa using List.find?_some h⟩

theorem control_eq_none : db.control key = none ↔ ∀ row ∈ db.controls, row.key ≠ key := by
  simp [control]

theorem control_update_ne (db : Db J) (hk : row.key ≠ key) : (db.update row).control key = db.control key := by
  simp only [control,update]
  induction db.controls with
  | nil => rfl
  | cons r rows ih =>
    rw [List.map_cons,List.find?_cons,List.find?_cons,ih]
    by_cases hr : r.key = row.key
    · simp [hr,hk]
    · simp [hr]

theorem control_update_self {old : ControlRow J} (h : db.control row.key = some old) :
    (db.update row).control row.key = some row := by
  obtain ⟨hmem,hkey⟩ := control_mem h
  rcases hc : (db.update row).control row.key with _ | r
  · exact absurd rfl (control_eq_none.mp hc row (List.mem_map.mpr ⟨old,hmem,by simp [hkey]⟩))
  · obtain ⟨hmem',hkey'⟩ := control_mem hc
    obtain ⟨r',_,rfl⟩ := List.mem_map.mp hmem'
    by_cases hr : r'.key = row.key
    · simp [hr]
    · simp [hr] at hkey'

theorem mem_update {r : ControlRow J} (h : r ∈ (db.update row).controls) :
    r = row ∨ r ∈ db.controls ∧ r.key ≠ row.key := by
  obtain ⟨r',hr',rfl⟩ := List.mem_map.mp h
  by_cases hk : r'.key = row.key
  · simp [hk]
  · simp [hk,hr']

theorem control_insert_self (db : Db J) (row : ControlRow J) :
    (db.insert row).control row.key = some ((db.control row.key).getD row) := by
  unfold insert
  split
  · rename_i h
    obtain ⟨r,hr⟩ := Option.isSome_iff_exists.mp h
    simp [hr]
  · rename_i h
    have hnone : db.control row.key = none := by simpa using h
    rw [hnone]
    simp only [control] at hnone ⊢
    simp [List.find?_append,hnone]

theorem control_insert_ne (db : Db J) (hk : row.key ≠ key) : (db.insert row).control key = db.control key := by
  unfold insert
  split
  · rfl
  · simp [control,List.find?_append,hk]

theorem mem_insert {r : ControlRow J} (h : r ∈ (db.insert row).controls) : r ∈ db.controls ∨ r = row := by
  unfold insert at h
  split at h
  · exact .inl h
  · simpa using h

theorem previous_mem (h : db.previous run = some row) : row ∈ db.controls ∧ run.owns row := by
  have hmem := List.mem_of_mem_head? h
  rw [List.mem_insertionSort,List.mem_filter] at hmem
  exact ⟨hmem.1,by simpa using hmem.2⟩

end Db

variable {env : Env J} {run : RunInput} {initialHead : ArtifactHead J} {db db' : Db J} {recovery : Bool}

structure Opened (env : Env J) (run : RunInput) (initialHead : ArtifactHead J) (db db' : Db J)
    (recovery : Bool) (control row : ControlRow J) : Prop where
  extraction : run.mode = .mirror → run.extraction = .full
  selected : control = (db.control run.key).getD (newControl env run initialHead (db.previous run))
  previous : ∀ p ∈ db.previous run, p.artifactHead.isSome = true ∧ SameTarget env run p
  unblocked : db.control run.key = none → db.blocked run = false
  target : control.artifactHead.isSome = true ∧ SameTarget env run control
  sameRun : (db.control run.key).isSome = true → control.phase.terminal = false ∧
    control.extraction = run.extraction
  updated : ∃ base store, row = reopened run (db.control run.key).isSome base store control
  controls : db'.controls = ((db.insert control).update row).controls
  saved : db'.saved = db.saved
  flag : recovery = ((db.control run.key).isSome && control.phase ≠ .new)

theorem checkTarget_ok {row : ControlRow J} {u : Unit} : checkTarget env run row = .ok u ↔
    row.artifactHead.isSome = true ∧ SameTarget env run row := by
  simp [checkTarget]

theorem claimTarget_frame (h : claimTarget env run db = .ok db') :
    db'.controls = db.controls ∧ db'.saved = db.saved := by
  unfold claimTarget at h
  split at h
  · simp only [bind_eq_ok,pure_eq_ok] at h
    obtain ⟨_,_,_,_,rfl⟩ := h
    unfold Db.claim
    split <;> exact ⟨rfl,rfl⟩
  · simp only [bind_eq_ok,pure_eq_ok] at h
    obtain ⟨_,_,rfl⟩ := h
    exact ⟨rfl,rfl⟩

theorem Db.insert_saved {row : ControlRow J} : (db.insert row).saved = db.saved := by
  unfold Db.insert
  split <;> rfl

theorem openRun_ok (h : openRun env run initialHead db = .ok (db',recovery)) :
    ∃ control row, Opened env run initialHead db db' recovery control row := by
  simp only [openRun,bind_eq_ok,require_eq_ok,onlyIf_eq_ok,pure_eq_ok,Prod.mk.injEq] at h
  obtain ⟨_,_,_,hext,_,_,_,hprev,_,hblock,_,htarget,_,hsame,mid,hclaim,state,_,rfl,rfl⟩ := h
  obtain ⟨hcontrols,hsaved⟩ := claimTarget_frame hclaim
  refine ⟨_,_,hext,rfl,?_,?_,checkTarget_ok.mp htarget,?_,
    ⟨baseOf run state,state.map SavedState.store,rfl⟩,?_,hsaved.trans Db.insert_saved,rfl⟩
  · intro p hp
    rw [Option.mem_def.mp hp] at hprev
    exact checkTarget_ok.mp hprev
  · intro hnone
    exact hblock (by simp [hnone])
  · intro hsome
    have hr := hsame hsome
    simp only [checkReopened,bind_eq_ok,require_eq_ok] at hr
    obtain ⟨_,hterm,hex⟩ := hr
    exact ⟨hterm,hex⟩
  · simp only [Db.update,hcontrols]

namespace Opened

variable {control row : ControlRow J} (h : Opened env run initialHead db db' recovery control row)
include h

theorem control_key : control.key = run.key := by
  rw [h.selected]
  rcases hc : db.control run.key with _ | c
  · rfl
  · exact (Db.control_mem hc).2

theorem row_key : row.key = run.key := by
  obtain ⟨base,store,rfl⟩ := h.updated
  exact h.control_key

theorem lookup : db'.control run.key = some row := by
  have hins : (db.insert control).control run.key = some control := by
    have := db.control_insert_self control
    rw [h.control_key] at this
    rw [this,h.selected]
    cases db.control run.key <;> rfl
  have hrow := h.row_key
  rw [← hrow] at hins ⊢
  have hself := Db.control_update_self hins
  simpa only [Db.control,h.controls] using hself

theorem others {key : List String} (hk : key ≠ run.key) : db'.control key = db.control key := by
  have h₁ := (db.insert control).control_update_ne (h.row_key.trans_ne hk.symm)
  have h₂ := db.control_insert_ne (h.control_key.trans_ne hk.symm)
  simp only [Db.control,h.controls] at h₁ h₂ ⊢
  exact h₁.trans h₂

theorem mem {r : ControlRow J} (hr : r ∈ db'.controls) : r = row ∨ r ∈ db.controls ∧ r.key ≠ row.key := by
  rw [h.controls] at hr
  rcases Db.mem_update hr with rfl | ⟨hr,hk⟩
  · exact .inl rfl
  · rcases Db.mem_insert hr with hr | rfl
    · exact .inr ⟨hr,hk⟩
    · exact absurd (h.control_key.trans h.row_key.symm) hk

theorem matches_scope : Matches env run row := by
  obtain ⟨base,store,rfl⟩ := h.updated
  exact ⟨h.control_key,h.target.2.2.2,rfl,h.target.2.2.1,h.target.2.1⟩

end Opened

end Jitsu.ReverseEtl
