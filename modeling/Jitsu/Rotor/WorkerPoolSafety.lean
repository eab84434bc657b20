import Jitsu.Rotor.WorkerPool

namespace Jitsu.Rotor.WorkerPool

open Transition

variable {d : Deployment} {s t : Server} {a : Event}

structure Served (s : Server) : Prop where
  executing : ∀ w, ∀ r ∈ (s.table w).pending, (s.table w).running = true ∧ r ∈ (s.table w).received
  spawning : ∀ {ws w}, s.spawning ws = some w → (s.table w).running = true
  pooled : ∀ {ws entry}, s.workers ws = some entry → (s.table entry.worker).running = true

theorem notStranded_iff (h : WellFormed s) : NotStranded s ↔ Served s := by
  constructor
  · intro hs
    exact ⟨hs.executing,fun hws => (hs.spawning hws).1,hs.pooled⟩
  · intro hs
    exact ⟨h.accounted,h.waiting,hs.executing,fun hws => ⟨hs.spawning hws,(h.spawned hws).2.2⟩,hs.pooled⟩

variable {w : ℕ}

theorem Served.updates {worker : WorkspaceWorker} (h : Served s) (hu : Updates s t w worker)
    (hrunning : (s.table w).running = true → worker.running = true)
    (hexec : ∀ r ∈ worker.pending, worker.running = true ∧ r ∈ worker.received) : Served t := by
  have halive : ∀ v, (s.table v).running = true → (t.table v).running = true := by
    intro v hv
    rcases hu.cases v with ⟨rfl,heq⟩ | heq
    · rw [heq]
      exact hrunning hv
    · rwa [heq]
  refine ⟨?_,?_,?_⟩
  · intro v
    rcases hu.cases v with ⟨rfl,heq⟩ | heq
    · rw [heq]
      exact hexec
    · rw [heq]
      exact h.executing v
  · intro ws v hws
    rw [hu.spawning] at hws
    exact halive v (h.spawning hws)
  · intro ws entry hws
    obtain ⟨e,hs,heq⟩ := hu.evolves.workers hws
    rw [← heq]
    exact halive _ (h.pooled hs)

section

variable (hw : WellFormed s)

include hw

theorem Served.runChain (h : Served s) (connected : String → Bool) (ws : String) :
    Served (s.runChain connected ws) := by
  rcases runChain_cases s connected ws with ⟨entry,hworkers⟩ | ⟨w,hworkers,hspawning⟩ | hc | heq
  · have hrunning := h.pooled hworkers
    refine h.updates (updates_existing hw connected hworkers) id ?_
    intro r hr
    refine ⟨hrunning,?_⟩
    simp only [posted,hrunning,if_true]
    rcases List.mem_append.mp hr with hold | hnew
    · exact List.mem_append_left _ (h.executing _ r hold).2
    · exact List.mem_append_right _ hnew
  · exact h.updates (updates_spawning hw connected hworkers hspawning) id (h.executing w)
  · refine ⟨?_,?_,?_⟩
    · intro w r hr
      by_cases hnew : w = s.nextWorker
      · rw [hnew,hc.table_new] at hr
        cases hr
      · rw [hc.table_old hnew] at hr ⊢
        exact h.executing w r hr
    · intro other w hspawning
      by_cases hother : other = ws
      · rw [hother,hc.spawning_new,Option.some.injEq] at hspawning
        rw [← hspawning,hc.table_new]
        rfl
      · rw [hc.spawning_old hother] at hspawning
        rw [hc.table_old (hw.spawned hspawning).1.ne]
        exact h.spawning hspawning
    · intro other entry hworkers
      rw [hc.pool] at hworkers
      rw [hc.table_old (hw.entered hworkers).1.ne]
      exact h.pooled hworkers
  · rw [heq]
    exact ⟨h.executing,h.spawning,h.pooled⟩

theorem Served.readies (h : Served s) (hr : Readies s t w) : Served t := by
  refine ⟨?_,?_,?_⟩
  · intro v r hmem
    by_cases hvw : v = w
    · rw [hvw,hr.table,Function.update_self] at hmem ⊢
      refine ⟨hr.running,?_⟩
      rcases List.mem_append.mp hmem with hold | hnew
      · exact List.mem_append_left _ (h.executing w r hold).2
      · exact List.mem_append_right _ hnew
    · rw [hr.table_old hvw] at hmem ⊢
      exact h.executing v r hmem
  · intro ws v hspawning
    obtain ⟨hws,hspawning⟩ := hr.new_spawn hspawning
    have hv : v ≠ w := by
      rintro rfl
      exact hws (hw.spawned hspawning).2.1.symm
    rw [hr.table_old hv]
    exact h.spawning hspawning
  · intro ws entry hworkers
    rcases hr.new_entry hworkers with ⟨_,rfl⟩ | ⟨hws,hworkers⟩
    · rw [hr.table,Function.update_self]
      exact hr.running
    · have hv : entry.worker ≠ w := by
        intro heq
        have hid := (hw.entered hworkers).2.1
        rw [heq] at hid
        exact hws hid.symm
      rw [hr.table_old hv]
      exact h.pooled hworkers

theorem Served.result (h : Served s) {requestId : ℕ}
    (hrunning : (s.table w).running = true) :
    Served (s.onResult w requestId) := by
  refine h.updates (updates_onResult hw hrunning) id ?_
  intro r hr
  obtain ⟨hold,hne⟩ := List.mem_filter.mp hr
  exact ⟨hrunning,List.mem_filter.mpr ⟨(h.executing w r hold).2,hne⟩⟩

theorem not_served_onError (hrunning : (s.table w).running = true) :
    ¬Served (s.onError w) := by
  intro h
  have hdead : ((s.onError w).table w).running = false := by
    rw [Server.onError,table_setWorker_same]
  rcases hw.housed w hrunning with hspawning | ⟨entry,hworkers,rfl⟩
  · exact Bool.false_ne_true (hdead.symm.trans (h.spawning hspawning))
  · exact Bool.false_ne_true (hdead.symm.trans (h.pooled hworkers))

theorem served_evict_iff (h : Served s) {ttlMs : ℕ} :
    Served (s.evict ttlMs) ↔
      ∀ ws entry, s.workers ws = some entry → s.idle ttlMs entry = true →
        (s.table entry.worker).pending = [] := by
  constructor
  · intro ht ws entry hworkers hidle
    have hevicted := (evicted_iff hw).mpr ⟨ws,entry,hworkers,rfl,hidle⟩
    rcases table_evict s ttlMs entry.worker with ⟨_,heq⟩ | ⟨hkept,_⟩
    · refine List.eq_nil_iff_forall_not_mem.mpr (fun r hr => ?_)
      have hrunning := (ht.executing entry.worker r (by rwa [heq])).1
      rw [heq] at hrunning
      exact Bool.false_ne_true hrunning
    · exact absurd (hevicted.symm.trans hkept) (by decide)
  · intro hidle
    refine ⟨?_,?_,?_⟩
    · intro w r hr
      rcases table_evict s ttlMs w with ⟨hevicted,heq⟩ | ⟨_,heq⟩
      · obtain ⟨ws,entry,hworkers,rfl,hi⟩ := (evicted_iff hw).mp hevicted
        rw [heq,hidle ws entry hworkers hi] at hr
        cases hr
      · rw [heq] at hr ⊢
        exact h.executing w r hr
    · intro ws w hspawning
      rcases table_evict s ttlMs w with ⟨hevicted,heq⟩ | ⟨_,heq⟩
      · obtain ⟨_,entry,hworkers,rfl,_⟩ := (evicted_iff hw).mp hevicted
        exact absurd ((hw.spawned hspawning).2.2.symm.trans (hw.entered hworkers).2.2) (by decide)
      · rw [heq]
        exact h.spawning hspawning
    · intro ws entry hworkers
      obtain ⟨hworkers,hbusy⟩ := workers_evict.mp hworkers
      rcases table_evict s ttlMs entry.worker with ⟨hevicted,_⟩ | ⟨_,heq⟩
      · obtain ⟨other,e,hother,heq,hi⟩ := (evicted_iff hw).mp hevicted
        have hid := (hw.entered hother).2.1
        rw [heq,(hw.entered hworkers).2.1] at hid
        subst hid
        rw [hworkers,Option.some.injEq] at hother
        rw [hother,hi] at hbusy
        cases hbusy
      · rw [heq]
        exact h.pooled hworkers

theorem served_step_iff (h : Served s) (hstep : step d s a = some t) :
    Served t ↔ Harmless d s a := by
  cases a with
  | request ws =>
    cases hstep
    exact iff_of_true (h.runChain hw d.connected ws) trivial
  | ready w =>
    obtain ⟨⟨hrunning,hready⟩,heq⟩ := Option.ite_none_right_eq_some.mp hstep
    cases heq
    exact iff_of_true (h.readies hw (readies_onReady hrunning hready)) trivial
  | result w r =>
    obtain ⟨⟨hrunning,_⟩,heq⟩ := Option.ite_none_right_eq_some.mp hstep
    cases heq
    exact iff_of_true (h.result hw hrunning) trivial
  | crash w =>
    obtain ⟨hrunning,heq⟩ := Option.ite_none_right_eq_some.mp hstep
    cases heq
    exact iff_of_false (not_served_onError hw hrunning) id
  | evict =>
    cases hstep
    exact served_evict_iff hw h
  | elapse ms =>
    cases hstep
    exact iff_of_true ⟨h.executing,h.spawning,h.pooled⟩ trivial

end

theorem not_stranded_iff_harmless (d : Deployment) (events : List Event) :
    (∀ before after s, events = before ++ after →
        (system d).run Server.started before = some s → NotStranded s) ↔
      ∀ before event after s t, events = before ++ event :: after →
        (system d).run Server.started before = some s → step d s event = some t → Harmless d s event := by
  have hserved : Served Server.started := ⟨(fun _ _ h => nomatch h),(fun h => nomatch h),(fun h => nomatch h)⟩
  refine (system d).always_iff (I := WellFormed) (fun h hstep => h.step hstep) ?_ .started
    ((notStranded_iff .started).mpr hserved) events
  intro s a t hw hs hstep
  rw [notStranded_iff (hw.step hstep)]
  exact served_step_iff hw ((notStranded_iff hw).mp hs) hstep

theorem one_worker_per_workspace {d : Deployment} {events : List Event} {s : Server}
    (h : (system d).run .started events = some s) {v w : ℕ} (hv : (s.table v).running = true)
    (hw : (s.table w).running = true) (hsame : (s.table v).workspaceId = (s.table w).workspaceId) : v = w := by
  have hs : WellFormed s := (system d).run_invariant WellFormed.step .started h
  have hhome := hs.housed v hv
  rw [hsame] at hhome
  rcases hhome with hspawn | ⟨e,he,rfl⟩ <;> rcases hs.housed w hw with hspawn' | ⟨e',he',rfl⟩
  · exact Option.some.inj (hspawn.symm.trans hspawn')
  · cases hspawn.symm.trans (hs.exclusive he')
  · cases hspawn'.symm.trans (hs.exclusive he)
  · rw [Option.some.inj (he.symm.trans he')]

def freeTier : Deployment := ⟨600000,fun _ => true⟩

def respawned : List Event := [.request "w",.ready 0,.elapse 600001,.evict,.request "w",.ready 1]

theorem one_worker_per_workspace_respawned : ∃ s ∈ (system freeTier).run .started respawned,
    ∀ w, (s.table w).running = true → "w" = (s.table w).workspaceId → 1 = w :=
  ⟨_,rfl,fun w => @one_worker_per_workspace freeTier respawned _ rfl 1 w rfl⟩

theorem executions_stranded :
    (∃ s, (system freeTier).run Server.started [.request "w",.ready 0,.crash 0] = some s ∧ ¬NotStranded s) ∧
    (∃ s, (system freeTier).run Server.started [.request "w",.crash 0] = some s ∧ ¬NotStranded s) ∧
    ∃ s, (system freeTier).run Server.started [.request "w",.ready 0,.elapse 600001,.evict] = some s ∧
      ¬NotStranded s := by
  refine ⟨⟨_,rfl,?_⟩,⟨_,rfl,?_⟩,⟨_,rfl,?_⟩⟩
  · intro h
    exact absurd (h.executing 0 0 List.mem_cons_self).1 Bool.false_ne_true
  · intro h
    have hspawning := @h.spawning "w" 0 rfl
    exact absurd hspawning.1 Bool.false_ne_true
  · intro h
    exact absurd (h.executing 0 0 List.mem_cons_self).1 Bool.false_ne_true

end Jitsu.Rotor.WorkerPool
