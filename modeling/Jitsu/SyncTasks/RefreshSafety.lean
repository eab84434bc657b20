import Jitsu.SyncTasks.Tasks

namespace Jitsu.SyncTasks

open Jitsu.Transition

structure Accounted (workers : String → Life) (row : Row) : Prop where
  alive : ∀ k, row.reverseWorker = some k → k.active = true → ∃ recovery, workers k.id = .running recovery ∧
    (row.status = .pending ∨ row.status = .running ∧ recovery = false)

def Task.Sound (s : Task) : Prop := ∀ row, s.row = some row → Accounted s.workers row

def Undisturbed (s : Task) : Action → Prop
  | .cancel _ => ∀ row, s.row = some row → row.active = false
  | .cancelPod => ∀ row, s.row = some row → row.active = false
  | .failReverseWorker _ => ∀ row, s.row = some row → row.active = false
  | _ => True

variable {cfg : Config} {s s' : Task} {row row' : Row} {workers : String → Life} {w : String}

theorem active_eq_false (h : row.active = false) {k : Worker} (hk : row.reverseWorker = some k) :
    k.active = false := by
  rw [Row.active,hk] at h
  exact h

theorem accounted_inactive (h : ∀ k, row.reverseWorker = some k → k.active = false) :
    Accounted workers row := by
  refine ⟨?_⟩
  intro k hk ha
  rw [h k hk] at ha
  cases ha

theorem accounted_stopped (hw : row.reverseWorker = some ⟨w,false,none⟩) : Accounted workers row := by
  refine accounted_inactive ?_
  intro k hk
  rw [hw] at hk
  cases hk
  rfl

theorem Accounted.others (h : Accounted workers row) (life : Life)
    (hne : ∀ k, row.reverseWorker = some k → k.active = true → k.id ≠ w) :
    Accounted (Function.update workers w life) row := by
  refine ⟨?_⟩
  intro k hk ha
  rw [Function.update_of_ne (hne k hk ha)]
  exact h.alive k hk ha

theorem activeAs_self {k : Worker} (hk : row.reverseWorker = some k) (ha : k.active = true) :
    row.activeAs k.id = true := by
  rw [Row.activeAs,hk]
  exact decide_eq_true ⟨rfl,ha⟩

theorem Accounted.finish (h : Accounted workers row) (now : ℕ) (status : Status) (schedule : Option Schedule) :
    Accounted (Function.update workers w .ended) (row.finish now w status schedule) := by
  unfold Row.finish
  split
  · exact accounted_stopped rfl
  · rename_i hn
    refine h.others .ended ?_
    rintro k hk ha rfl
    obtain ⟨_,_,hs⟩ := h.alive k hk ha
    exact hn ⟨hs.symm.imp And.left id,activeAs_self hk ha⟩

variable {now : ℕ}

theorem Accounted.refreshFailed (h : Accounted workers row) (hw : workers w = .running true)
    {stop : Bool} (hr : row.refreshFailed cfg now w stop = some row') :
    Accounted (Function.update workers w .ended) row' := by
  unfold Row.refreshFailed at hr
  split at hr
  · split at hr
    · cases hr
    · dsimp only at hr
      split at hr <;> cases hr
      exact accounted_stopped rfl
  · rename_i hn
    cases hr
    refine h.others .ended ?_
    rintro k hk ha rfl
    obtain ⟨recovery,hl,hs⟩ := h.alive k hk ha
    rw [hw] at hl
    cases hl
    refine hn ⟨hs.imp id ?_,activeAs_self hk ha⟩
    rintro ⟨_,hfalse⟩
    cases hfalse

variable {workspaceId : String}

theorem Accounted.start {control : Control} {revision : String}
    {refreshAttempt : Option ℕ} (h : row.start control now w workspaceId revision refreshAttempt = some row') :
    Accounted (Function.update workers w (.running true)) row' := by
  unfold Row.start at h
  split at h
  · cases h
  · split at h <;> cases h
    refine ⟨?_⟩
    rintro k ⟨⟩ _
    exact ⟨true,Function.update_self ..,.inl rfl⟩

theorem Accounted.cancel (h : row.active = false) (now : ℕ) : Accounted workers (row.cancel now) := by
  refine accounted_inactive ?_
  intro k hk
  unfold Row.cancel at hk
  split at hk <;> exact active_eq_false h hk

theorem Accounted.failReverseWorker (h : row.active = false) (now : ℕ) :
    Accounted workers (row.failReverseWorker now w) := by
  refine accounted_inactive ?_
  intro k hk
  unfold Row.failReverseWorker at hk
  split at hk <;> exact active_eq_false h hk

theorem Accounted.closeStale (h : Accounted workers row) (now staleAfter : ℕ) :
    Accounted workers (row.closeStale now staleAfter) := by
  unfold Row.closeStale
  split
  · refine accounted_inactive ?_
    intro k hk
    obtain ⟨k',_,rfl⟩ := Option.map_eq_some_iff.mp hk
    rfl
  · exact h

theorem Accounted.recordFailure (h : Accounted workers row) (now : ℕ) (allowActive : Bool)
    (staleBefore : Option ℕ) :
    Accounted workers (row.recordReverseRefreshFailure cfg now w allowActive staleBefore) := by
  unfold Row.recordReverseRefreshFailure
  split
  · exact h
  · exact iteInduction (fun _ => accounted_stopped rfl) (fun _ => h)

theorem Accounted.refresh {control : Control} {revision : String}
    (h : row.refreshReverseTask cfg control now workspaceId revision = some row') :
    Accounted workers row' := by
  unfold Row.refreshReverseTask at h
  split at h
  · cases h
  · split at h <;> cases h
    rename_i hcond
    exact accounted_inactive (fun k hk => active_eq_false hcond.2.1 hk)

theorem Task.Sound.onRow (h : s.Sound) {f : Row → Row} (hf : ∀ row, s.row = some row →
    Accounted s.workers row → Accounted s.workers (f row)) : (s.onRow f).Sound := by
  intro row hrow
  obtain ⟨row₀,hrow₀,rfl⟩ := Option.map_eq_some_iff.mp hrow
  exact hf row₀ hrow₀ (h row₀ hrow₀)

theorem Task.finish_sound (h : s.Sound) {status : Status} {schedule : Option Schedule}
    (hs : s.finish w status schedule = some s') : s'.Sound := by
  unfold Task.finish at hs
  split at hs <;> cases hs
  intro row hrow
  obtain ⟨row₀,hrow₀,rfl⟩ := Option.map_eq_some_iff.mp hrow
  exact (h row₀ hrow₀).finish s.clock status schedule

theorem Task.refreshFailed_sound (h : s.Sound) {stop : Bool} (hs : s.refreshFailed cfg w stop = some s') :
    s'.Sound := by
  unfold Task.refreshFailed at hs
  split at hs
  · rename_i hw
    split at hs
    · rename_i hnone
      cases hs
      intro row hrow
      change s.row = some row at hrow
      rw [hnone] at hrow
      cases hrow
    · rename_i row hrow
      obtain ⟨row',hrow',rfl⟩ := Option.map_eq_some_iff.mp hs
      rintro _ ⟨⟩
      exact (h row hrow).refreshFailed hw hrow'
  · cases hs

theorem Task.start_sound (hs : s.start w workspaceId = some s') : s'.Sound := by
  unfold Task.start at hs
  split at hs <;> cases hs
  rintro _ ⟨⟩
  refine ⟨?_⟩
  rintro k ⟨⟩ _
  exact ⟨false,Function.update_self ..,.inr ⟨rfl,rfl⟩⟩

theorem Task.startRecovery_sound {revision : String} {refreshAttempt : Option ℕ}
    (hs : s.startRecovery w workspaceId revision refreshAttempt = some s') : s'.Sound := by
  obtain ⟨row',hrow',rfl⟩ := Option.map_eq_some_iff.mp hs
  obtain ⟨row,_,hstart⟩ := Option.bind_eq_some_iff.mp hrow'
  rintro _ ⟨⟩
  exact Accounted.start hstart

theorem Task.heartbeat_sound (h : s.Sound) : (s.heartbeat w).Sound := by
  refine h.onRow ?_
  intro row _ hrow
  split
  · exact ⟨hrow.alive⟩
  · exact hrow

theorem Task.cancelPod_sound (hok : ∀ row, s.row = some row → row.active = false) : s.cancelPod.Sound := by
  unfold Task.cancelPod
  split
  · rintro _ ⟨⟩
    exact accounted_inactive nofun
  · rename_i row hrow
    rintro _ ⟨⟩
    exact Accounted.cancel (hok row hrow) s.clock

theorem Task.failReverseWorker_sound (hok : ∀ row, s.row = some row → row.active = false) :
    (s.failReverseWorker w).Sound := by
  unfold Task.failReverseWorker
  split
  · rintro _ ⟨⟩
    exact accounted_inactive nofun
  · rename_i row hrow
    rintro _ ⟨⟩
    exact Accounted.failReverseWorker (hok row hrow) s.clock

theorem Task.step_sound {a : Action} (h : s.Sound) (hok : Undisturbed s a) (hs : s.step cfg a = some s') :
    s'.Sound := by
  cases a with
  | elapse duration =>
    cases hs
    exact h
  | control control =>
    cases hs
    exact h
  | start w workspaceId => exact start_sound hs
  | startRecovery w workspaceId revision refreshAttempt => exact startRecovery_sound hs
  | heartbeat w =>
    cases hs
    exact heartbeat_sound h
  | finish w status schedule => exact finish_sound h hs
  | wait w runId revision previous => exact finish_sound h hs
  | refreshFailed w stop => exact refreshFailed_sound h hs
  | cancel workspaceId =>
    cases hs
    refine h.onRow ?_
    intro row hrow hacc
    split
    · exact Accounted.cancel (hok row hrow) s.clock
    · exact hacc
  | cancelPod =>
    cases hs
    exact cancelPod_sound hok
  | closeStale =>
    cases hs
    exact h.onRow (fun _ _ hrow => hrow.closeStale s.clock 120000)
  | failReverseWorker w =>
    cases hs
    exact failReverseWorker_sound hok
  | recordFailure w allowActive staleBefore =>
    cases hs
    exact h.onRow (fun _ _ hrow => hrow.recordFailure s.clock allowActive staleBefore)
  | refresh workspaceId revision =>
    obtain ⟨row',hrow',rfl⟩ := Option.map_eq_some_iff.mp hs
    obtain ⟨row,_,hrefresh⟩ := Option.bind_eq_some_iff.mp hrow'
    rintro _ ⟨⟩
    exact Accounted.refresh hrefresh

def Saved (s : Task) (row : Row) (schedule : Schedule) (workspaceId revision : String) : Prop :=
  row.reverseRecovery = some schedule ∧ row.workspaceId = some workspaceId ∧
    s.control = ⟨workspaceId,schedule.runId,schedule.revision,false⟩ ∧ revision = schedule.revision

theorem refresh_remains_possible (cfg : Config) {s : Task} (h : (tasks cfg).Reachable Undisturbed s)
    {row : Row} (hrow : s.row = some row) {k : Worker} (hk : row.reverseWorker = some k)
    (hend : s.workers k.id = .ended) :
    k.active = false ∧ ∀ schedule workspaceId revision, Saved s row schedule workspaceId revision →
      schedule.attempt < maxAttempt →
      row.status = .pending ∨ row.status = .waiting ∨ row.status = .failed ∨ row.status = .cancelled →
      ((tasks cfg).step s (.refresh workspaceId revision)).isSome := by
  have hs : s.Sound := by
    refine h.invariant (I := Task.Sound) ?_ (fun _ _ _ hi hok hs => Task.step_sound hi hok hs)
    rintro t ⟨hnone,_⟩ row hrow
    rw [hnone] at hrow
    cases hrow
  have hactive : k.active = false := by
    by_contra ha
    obtain ⟨_,hl,_⟩ := (hs row hrow).alive k hk (by simpa using ha)
    rw [hend] at hl
    cases hl
  refine ⟨hactive,?_⟩
  rintro schedule workspaceId revision ⟨hsaved,hws,hcontrol,hrev⟩ hattempt hstatus
  have hrowActive : row.active = false := by
    rw [Row.active,hk]
    exact hactive
  change ((s.row.bind _).map _).isSome = true
  rw [hrow,Option.isSome_map,Option.bind_some,Row.refreshReverseTask,hsaved,hcontrol]
  dsimp only
  rw [if_pos ⟨hstatus,hrowActive,hattempt,hws,rfl,rfl,hrev.symm,rfl,rfl⟩]
  rfl

def sampleConfig : Config :=
  ⟨fun attempt => if attempt = 0 then 1800000 else 3600000,86400000,fun _ => "refresh"⟩

def sampleTask : Task := ⟨none,⟨"workspace","run","1",false⟩,0,fun _ => .absent⟩

def pendingRun : List Action :=
  [.start "first" "workspace",.wait "first" "run" "1" none]

def refreshedRun : List Action := pendingRun ++ [.refresh "workspace" "1",
  .startRecovery "second" "workspace" "1" none,.refreshFailed "second" false]

def cancelledRun : List Action := pendingRun ++ [.elapse 1800000,
  .startRecovery "second" "workspace" "1" none,.cancel "workspace",.refreshFailed "second" false]

theorem refresh_remains_possible_refreshedRun :
    ∃ s, (tasks sampleConfig).run sampleTask refreshedRun = some s ∧
    ((tasks sampleConfig).step s (.refresh "workspace" "1")).isSome := by
  have hrun : ((tasks sampleConfig).run sampleTask refreshedRun).any (fun s => s.row = some
      ⟨.pending,some "workspace",some ⟨"run","1",2,86400000,3600000,false,none⟩,
        some ⟨"second",false,none⟩,0⟩ ∧
      s.workers "second" = .ended ∧ s.control = ⟨"workspace","run","1",false⟩) = true := by decide +kernel
  simp only [Option.any_eq_true,decide_eq_true_eq] at hrun
  obtain ⟨s,hs,hrow,hend,hcontrol⟩ := hrun
  have hok : ∀ a ∈ refreshedRun, ∀ s, Undisturbed s a := by
    intro a ha s
    simp only [refreshedRun,pendingRun,List.cons_append,List.nil_append,List.mem_cons,List.not_mem_nil,
      or_false] at ha
    rcases ha with rfl | rfl | rfl | rfl | rfl <;> trivial
  have hstart : (tasks sampleConfig).initial sampleTask := ⟨rfl,fun _ => rfl⟩
  have hr := (System.Reachable.initial hstart).runs hok hs
  exact ⟨s,hs,(refresh_remains_possible sampleConfig hr hrow rfl hend).2 _ _ _ ⟨rfl,rfl,hcontrol,rfl⟩
    (by decide) (.inl rfl)⟩

theorem cancelled_worker_blocks_refresh : ∃ s, (tasks sampleConfig).Reachable (fun _ _ => True) s ∧
    ∃ row k schedule, s.row = some row ∧ row.reverseWorker = some k ∧ s.workers k.id = .ended ∧
      k.active = true ∧ row.status = .cancelled ∧ Saved s row schedule "workspace" "1" ∧
      (tasks sampleConfig).step s (.refresh "workspace" "1") = none := by
  have hrun : ((tasks sampleConfig).run sampleTask cancelledRun).any (fun s => s.row = some
      ⟨.cancelled,some "workspace",some ⟨"run","1",0,86400000,1800000,false,none⟩,
        some ⟨"second",true,some .pending⟩,1800000⟩ ∧
      s.workers "second" = .ended ∧ s.control = ⟨"workspace","run","1",false⟩) = true := by decide +kernel
  simp only [Option.any_eq_true,decide_eq_true_eq] at hrun
  obtain ⟨s,hs,hrow,hend,hcontrol⟩ := hrun
  refine ⟨s,System.Reachable.run (.initial ⟨rfl,fun _ => rfl⟩) hs,_,_,_,hrow,rfl,hend,rfl,rfl,
    ⟨rfl,rfl,hcontrol,rfl⟩,?_⟩
  change (s.row.bind _).map _ = none
  rw [hrow]
  rfl

end Jitsu.SyncTasks
