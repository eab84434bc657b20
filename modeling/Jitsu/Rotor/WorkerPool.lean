import Jitsu.Lib.Transition

namespace Jitsu.Rotor.WorkerPool

open Transition

structure WorkspaceWorker where
  workspaceId : String
  running : Bool
  ready : Bool
  waiting : List ℕ
  pending : List ℕ
  received : List ℕ

structure LazyWorkerEntry where
  worker : ℕ
  lastUsedAt : ℕ

structure Server where
  now : ℕ
  table : ℕ → WorkspaceWorker
  nextWorker : ℕ
  workers : String → Option LazyWorkerEntry
  spawning : String → Option ℕ
  nextRequest : ℕ
  settled : List ℕ

inductive Event where
  | request (workspaceId : String)
  | ready (worker : ℕ)
  | result (worker requestId : ℕ)
  | crash (worker : ℕ)
  | evict
  | elapse (ms : ℕ)

def absent : WorkspaceWorker := ⟨"",false,false,[],[],[]⟩

namespace Server

variable (s : Server)

def started : Server := ⟨0,fun _ => absent,0,fun _ => none,fun _ => none,0,[]⟩

def setWorker (w : ℕ) (worker : WorkspaceWorker) : Server :=
  { s with table := Function.update s.table w worker }

def createWorkspaceWorker (workspaceId : String) (waiting : List ℕ) : Server :=
  { s.setWorker s.nextWorker ⟨workspaceId,true,false,waiting,[],[]⟩ with
    nextWorker := s.nextWorker + 1
    spawning := Function.update s.spawning workspaceId (some s.nextWorker) }

def execInWorker (w requestId : ℕ) : Server :=
  let worker := s.table w
  s.setWorker w { worker with
    pending := worker.pending ++ [requestId]
    received := if worker.running = true then worker.received ++ [requestId] else worker.received }

def touch (workspaceId : String) (w : ℕ) : Server :=
  { s with workers := Function.update s.workers workspaceId (some ⟨w,s.now⟩) }

def runChain (connected : String → Bool) (workspaceId : String) : Server :=
  let requestId := s.nextRequest
  let s := { s with nextRequest := s.nextRequest + 1 }
  match s.workers workspaceId with
  | some existing => (s.touch workspaceId existing.worker).execInWorker existing.worker requestId
  | none =>
    match s.spawning workspaceId with
    | some w =>
      let worker := s.table w
      s.setWorker w { worker with waiting := worker.waiting ++ [requestId] }
    | none =>
      if connected workspaceId = true then s.createWorkspaceWorker workspaceId [requestId]
      else { s with settled := s.settled ++ [requestId] }

def onReady (w : ℕ) : Server :=
  let worker := s.table w
  { (s.touch worker.workspaceId w).setWorker w { worker with
      ready := true
      waiting := []
      pending := worker.pending ++ worker.waiting
      received := worker.received ++ worker.waiting } with
    spawning := Function.update s.spawning worker.workspaceId none }

def onResult (w requestId : ℕ) : Server :=
  let worker := s.table w
  let s := { s with settled := if requestId ∈ worker.pending then s.settled ++ [requestId] else s.settled }
  s.setWorker w { worker with
    pending := worker.pending.filter (· ≠ requestId)
    received := worker.received.filter (· ≠ requestId) }

def onError (w : ℕ) : Server := s.setWorker w { s.table w with running := false }

def idle (ttlMs : ℕ) (entry : LazyWorkerEntry) : Bool := ttlMs < s.now - entry.lastUsedAt

def evicted (ttlMs w : ℕ) : Bool :=
  (s.workers (s.table w).workspaceId).any (fun entry => entry.worker == w && s.idle ttlMs entry)

def evict (ttlMs : ℕ) : Server :=
  { s with
    workers := fun workspaceId => (s.workers workspaceId).filter (fun entry => !s.idle ttlMs entry)
    table := fun w => if s.evicted ttlMs w = true then { s.table w with running := false } else s.table w }

end Server

structure Deployment where
  workerTtlMs : ℕ
  connected : String → Bool

def step (d : Deployment) (s : Server) : Event → Option Server
  | .request workspaceId => some (s.runChain d.connected workspaceId)
  | .ready w =>
    if (s.table w).running = true ∧ (s.table w).ready = false then some (s.onReady w) else none
  | .result w requestId =>
    if (s.table w).running = true ∧ requestId ∈ (s.table w).received then some (s.onResult w requestId)
    else none
  | .crash w => if (s.table w).running = true then some (s.onError w) else none
  | .evict => some (s.evict d.workerTtlMs)
  | .elapse ms => some { s with now := s.now + ms }

def system (d : Deployment) : System Server Event where
  initial s := s = Server.started
  step := step d

structure NotStranded (s : Server) : Prop where
  accounted : ∀ r < s.nextRequest, r ∈ s.settled ∨ ∃ w, r ∈ (s.table w).waiting ∨ r ∈ (s.table w).pending
  waiting : ∀ w, ∀ r ∈ (s.table w).waiting, s.spawning (s.table w).workspaceId = some w
  executing : ∀ w, ∀ r ∈ (s.table w).pending, (s.table w).running = true ∧ r ∈ (s.table w).received
  spawning : ∀ {ws w}, s.spawning ws = some w → (s.table w).running = true ∧ (s.table w).ready = false
  pooled : ∀ {ws entry}, s.workers ws = some entry → (s.table entry.worker).running = true

def Harmless (d : Deployment) (s : Server) : Event → Prop
  | .crash _ => False
  | .evict => ∀ ws entry, s.workers ws = some entry → s.idle d.workerTtlMs entry = true →
      (s.table entry.worker).pending = []
  | _ => True

structure WellFormed (s : Server) : Prop where
  fresh : ∀ w, s.nextWorker ≤ w → s.table w = absent
  unready : ∀ w, (s.table w).ready = false → (s.table w).pending = []
  spawned : ∀ {ws w}, s.spawning ws = some w →
    w < s.nextWorker ∧ (s.table w).workspaceId = ws ∧ (s.table w).ready = false
  entered : ∀ {ws entry}, s.workers ws = some entry →
    entry.worker < s.nextWorker ∧ (s.table entry.worker).workspaceId = ws ∧ (s.table entry.worker).ready = true
  housed : ∀ w, (s.table w).running = true →
    s.spawning (s.table w).workspaceId = some w ∨
      ∃ entry, s.workers (s.table w).workspaceId = some entry ∧ entry.worker = w
  exclusive : ∀ {ws entry}, s.workers ws = some entry → s.spawning ws = none
  waiting : ∀ w, ∀ r ∈ (s.table w).waiting, s.spawning (s.table w).workspaceId = some w
  accounted : ∀ r < s.nextRequest, r ∈ s.settled ∨ ∃ w, r ∈ (s.table w).waiting ∨ r ∈ (s.table w).pending

variable {d : Deployment} {s t : Server} {a : Event}

theorem WellFormed.started : WellFormed Server.started where
  fresh _ _ := rfl
  unready _ _ := rfl
  spawned h := nomatch h
  entered h := nomatch h
  housed _ h := nomatch h
  exclusive h := nomatch h
  waiting _ _ h := nomatch h
  accounted _ h := nomatch h

section Table

variable {w : ℕ} {worker : WorkspaceWorker}

theorem table_setWorker_same : (s.setWorker w worker).table w = worker := Function.update_self ..

theorem workers_setWorker : (s.setWorker w worker).workers = s.workers := rfl

theorem workers_touch_same {ws : String} :
    (s.touch ws w).workers ws = some ⟨w,s.now⟩ := Function.update_self ..

theorem workers_touch_ne {ws other : String} (h : other ≠ ws) :
    (s.touch ws w).workers other = s.workers other :=
  Function.update_of_ne h ..

end Table

structure Evolves (s t : Server) : Prop where
  nextWorker : t.nextWorker = s.nextWorker
  spawning : t.spawning = s.spawning
  workers : ∀ {ws entry}, t.workers ws = some entry → ∃ e, s.workers ws = some e ∧ e.worker = entry.worker
  kept : ∀ {ws e}, s.workers ws = some e → (t.table e.worker).running = true →
    ∃ entry, t.workers ws = some entry ∧ entry.worker = e.worker
  fresh : ∀ w, s.nextWorker ≤ w → t.table w = s.table w
  workspaceId : ∀ w, (t.table w).workspaceId = (s.table w).workspaceId
  ready : ∀ w, (t.table w).ready = (s.table w).ready
  running : ∀ w, (t.table w).running = true → (s.table w).running = true
  unready : ∀ w, (s.table w).ready = false → (s.table w).pending = [] → (t.table w).pending = []
  waiting : ∀ w, ∀ r ∈ (t.table w).waiting,
    r ∈ (s.table w).waiting ∨ s.spawning (s.table w).workspaceId = some w
  accounted : ∀ r < t.nextRequest, r ∈ t.settled ∨ ∃ w, r ∈ (t.table w).waiting ∨ r ∈ (t.table w).pending

theorem WellFormed.evolve (h : WellFormed s) (he : Evolves s t) : WellFormed t where
  fresh w hw := by
    rw [he.nextWorker] at hw
    exact (he.fresh w hw).trans (h.fresh w hw)
  unready w hw := by
    rw [he.ready] at hw
    exact he.unready w hw (h.unready w hw)
  spawned hws := by
    rw [he.spawning] at hws
    rw [he.nextWorker,he.workspaceId,he.ready]
    exact h.spawned hws
  entered hws := by
    obtain ⟨e,hs,heq⟩ := he.workers hws
    rw [he.nextWorker,he.workspaceId,he.ready,← heq]
    exact h.entered hs
  housed w hw := by
    rw [he.spawning,he.workspaceId]
    refine (h.housed w (he.running w hw)).imp_right ?_
    rintro ⟨e,hs,rfl⟩
    exact he.kept hs hw
  exclusive hws := by
    obtain ⟨e,hs,_⟩ := he.workers hws
    rw [he.spawning]
    exact h.exclusive hs
  waiting w r hr := by
    rw [he.spawning,he.workspaceId]
    rcases he.waiting w r hr with hold | hnew
    · exact h.waiting w r hold
    · exact hnew
  accounted := he.accounted

structure Updates (s t : Server) (w : ℕ) (worker : WorkspaceWorker) : Prop where
  table : t.table = Function.update s.table w worker
  nextWorker : t.nextWorker = s.nextWorker
  spawning : t.spawning = s.spawning
  workers : ∀ ws, (t.workers ws).map LazyWorkerEntry.worker = (s.workers ws).map LazyWorkerEntry.worker
  known : w < s.nextWorker
  workspaceId : worker.workspaceId = (s.table w).workspaceId
  ready : worker.ready = (s.table w).ready
  running : worker.running = true → (s.table w).running = true
  unready : (s.table w).ready = false → (s.table w).pending = [] → worker.pending = []
  waiting : ∀ r ∈ worker.waiting, r ∈ (s.table w).waiting ∨ s.spawning (s.table w).workspaceId = some w
  accounted : ∀ r < t.nextRequest, r ∈ t.settled ∨ ∃ v, r ∈ (t.table v).waiting ∨ r ∈ (t.table v).pending

variable {w : ℕ} {worker : WorkspaceWorker}

theorem Updates.cases (h : Updates s t w worker) (v : ℕ) :
    v = w ∧ t.table v = worker ∨ t.table v = s.table v := by
  rw [h.table]
  by_cases hv : v = w
  · subst hv
    exact .inl ⟨rfl,Function.update_self ..⟩
  · exact .inr (Function.update_of_ne hv ..)

theorem Updates.evolves (h : Updates s t w worker) : Evolves s t where
  nextWorker := h.nextWorker
  spawning := h.spawning
  workers := by
    intro ws entry hws
    have hsame := h.workers ws
    rw [hws,Option.map_some] at hsame
    exact Option.map_eq_some_iff.mp hsame.symm
  kept := by
    intro ws e hws _
    have hsame := h.workers ws
    rw [hws,Option.map_some] at hsame
    exact Option.map_eq_some_iff.mp hsame
  fresh := by
    intro v hv
    rcases h.cases v with ⟨rfl,_⟩ | hsame
    · exact absurd h.known (by omega)
    · exact hsame
  workspaceId := by
    intro v
    rcases h.cases v with ⟨rfl,hv⟩ | hv
    · rw [hv,h.workspaceId]
    · rw [hv]
  ready := by
    intro v
    rcases h.cases v with ⟨rfl,hv⟩ | hv
    · rw [hv,h.ready]
    · rw [hv]
  running := by
    intro v
    rcases h.cases v with ⟨rfl,hv⟩ | hv
    · rw [hv]
      exact h.running
    · rw [hv]
      exact id
  unready := by
    intro v
    rcases h.cases v with ⟨rfl,hv⟩ | hv
    · rw [hv]
      exact h.unready
    · rw [hv]
      exact fun _ hpending => hpending
  waiting := by
    intro v r hr
    rcases h.cases v with ⟨rfl,hv⟩ | hv
    · rw [hv] at hr
      exact h.waiting r hr
    · rw [hv] at hr
      exact .inl hr
  accounted := h.accounted

theorem WellFormed.known (h : WellFormed s) (hw : (s.table w).running = true) : w < s.nextWorker := by
  by_contra hle
  rw [h.fresh w (by omega)] at hw
  exact Bool.false_ne_true hw

theorem WellFormed.still (h : WellFormed s)
    (htable : t.table = Function.update s.table w worker) (hsettled : ∀ r ∈ s.settled, r ∈ t.settled)
    (hknown : ∀ r, r ∈ (s.table w).waiting ∨ r ∈ (s.table w).pending →
      r ∈ t.settled ∨ r ∈ worker.waiting ∨ r ∈ worker.pending) {r : ℕ} (hr : r < s.nextRequest) :
    r ∈ t.settled ∨ ∃ v, r ∈ (t.table v).waiting ∨ r ∈ (t.table v).pending := by
  rw [htable]
  rcases h.accounted r hr with hold | ⟨v,hv⟩
  · exact .inl (hsettled r hold)
  · by_cases hvw : v = w
    · subst hvw
      refine (hknown r hv).imp_right (fun hr => ⟨v,?_⟩)
      rwa [Function.update_self]
    · refine .inr ⟨v,?_⟩
      rwa [Function.update_of_ne hvw]

theorem updates_onError (h : WellFormed s) (hw : (s.table w).running = true) :
    Updates s (s.onError w) w { s.table w with running := false } where
  table := rfl
  nextWorker := rfl
  spawning := rfl
  workers _ := rfl
  known := h.known hw
  workspaceId := rfl
  ready := rfl
  running _ := hw
  unready _ hpending := hpending
  waiting _ hr := .inl hr
  accounted := by
    intro r hr
    refine h.still rfl ?_ ?_ hr
    · exact fun _ hr => hr
    · exact fun _ => .inr

theorem updates_onResult (h : WellFormed s) {requestId : ℕ} (hw : (s.table w).running = true) :
    Updates s (s.onResult w requestId) w { s.table w with
      pending := (s.table w).pending.filter (· ≠ requestId)
      received := (s.table w).received.filter (· ≠ requestId) } where
  table := rfl
  nextWorker := rfl
  spawning := rfl
  workers _ := rfl
  known := h.known hw
  workspaceId := rfl
  ready := rfl
  running := id
  unready _ hpending := by rw [hpending]; rfl
  waiting _ hr := .inl hr
  accounted := by
    have hsettled : (s.onResult w requestId).settled =
        if requestId ∈ (s.table w).pending then s.settled ++ [requestId] else s.settled := rfl
    refine fun r hr => h.still rfl ?_ ?_ hr
    · intro r hr
      rw [hsettled]
      split
      · exact List.mem_append_left _ hr
      · exact hr
    · rintro r (hwaiting | hpending)
      · exact .inr (.inl hwaiting)
      · by_cases hrequest : r = requestId
        · subst hrequest
          rw [hsettled,if_pos hpending]
          exact .inl (List.mem_append_right _ List.mem_cons_self)
        · exact .inr (.inr (List.mem_filter.mpr ⟨hpending,by simpa using hrequest⟩))

theorem accounted_next {old : ℕ} {t : Server} (hnext : t.nextRequest = old + 1)
    (hold : ∀ r < old, r ∈ t.settled ∨ ∃ v, r ∈ (t.table v).waiting ∨ r ∈ (t.table v).pending)
    (hnew : old ∈ t.settled ∨ ∃ v, old ∈ (t.table v).waiting ∨ old ∈ (t.table v).pending) :
    ∀ r < t.nextRequest, r ∈ t.settled ∨ ∃ v, r ∈ (t.table v).waiting ∨ r ∈ (t.table v).pending := by
  intro r hr
  rcases Nat.lt_succ_iff_lt_or_eq.mp (hnext ▸ hr) with hlt | rfl
  · exact hold r hlt
  · exact hnew

def posted (worker : WorkspaceWorker) (requestId : ℕ) : WorkspaceWorker :=
  { worker with
    pending := worker.pending ++ [requestId]
    received := if worker.running = true then worker.received ++ [requestId] else worker.received }

variable {connected : String → Bool} {ws : String} {entry : LazyWorkerEntry}

theorem runChain_existing
    (hws : s.workers ws = some entry) :
    s.runChain connected ws =
      (({ s with nextRequest := s.nextRequest + 1 }.touch ws entry.worker).setWorker entry.worker
        (posted (s.table entry.worker) s.nextRequest)) := by
  simp only [Server.runChain,hws]
  rfl

theorem updates_existing (h : WellFormed s) (connected : String → Bool)
    (hws : s.workers ws = some entry) :
    Updates s (s.runChain connected ws) entry.worker (posted (s.table entry.worker) s.nextRequest) := by
  rw [runChain_existing hws]
  exact {
    table := rfl
    nextWorker := rfl
    spawning := rfl
    workers := by
      intro other
      by_cases hother : other = ws
      · subst hother
        rw [workers_setWorker,workers_touch_same,hws]
        rfl
      · rw [workers_setWorker,workers_touch_ne hother]
    known := (h.entered hws).1
    workspaceId := rfl
    ready := rfl
    running := id
    unready := fun hready => absurd (h.entered hws).2.2 (by rw [hready]; exact Bool.false_ne_true)
    waiting := fun _ hr => .inl hr
    accounted := by
      refine accounted_next rfl (fun r hr => ?_) (.inr ⟨entry.worker,.inr ?_⟩)
      · refine h.still rfl ?_ ?_ hr
        · exact fun _ hr => hr
        · rintro r (hwaiting | hpending)
          · exact .inr (.inl hwaiting)
          · exact .inr (.inr (List.mem_append_left _ hpending))
      · rw [table_setWorker_same]
        exact List.mem_append_right _ List.mem_cons_self }

def queued (worker : WorkspaceWorker) (requestId : ℕ) : WorkspaceWorker :=
  { worker with waiting := worker.waiting ++ [requestId] }

theorem runChain_spawning (hws : s.workers ws = none)
    (hspawning : s.spawning ws = some w) :
    s.runChain connected ws =
      ({ s with nextRequest := s.nextRequest + 1 }.setWorker w (queued (s.table w) s.nextRequest)) := by
  simp only [Server.runChain,hws,hspawning]
  rfl

theorem updates_spawning (h : WellFormed s) (connected : String → Bool)
    (hws : s.workers ws = none) (hspawning : s.spawning ws = some w) :
    Updates s (s.runChain connected ws) w (queued (s.table w) s.nextRequest) := by
  obtain ⟨hknown,hid,_⟩ := h.spawned hspawning
  rw [runChain_spawning hws hspawning]
  exact {
    table := rfl
    nextWorker := rfl
    spawning := rfl
    workers := fun _ => rfl
    known := hknown
    workspaceId := rfl
    ready := rfl
    running := id
    unready := fun _ hpending => hpending
    waiting := fun _ _ => .inr (hid.symm ▸ hspawning)
    accounted := by
      refine accounted_next rfl (fun r hr => ?_) (.inr ⟨w,.inl ?_⟩)
      · refine h.still rfl ?_ ?_ hr
        · exact fun _ hr => hr
        · rintro r (hwaiting | hpending)
          · exact .inr (.inl (List.mem_append_left _ hwaiting))
          · exact .inr (.inr hpending)
      · rw [table_setWorker_same]
        exact List.mem_append_right _ List.mem_cons_self }

theorem evicted_iff (h : WellFormed s) {ttlMs : ℕ} :
    s.evicted ttlMs w = true ↔
      ∃ ws entry, s.workers ws = some entry ∧ entry.worker = w ∧ s.idle ttlMs entry = true := by
  rw [Server.evicted,Option.any_eq_true]
  constructor
  · rintro ⟨entry,hws,hentry⟩
    rw [Bool.and_eq_true,beq_iff_eq] at hentry
    exact ⟨_,entry,hws,hentry.1,hentry.2⟩
  · rintro ⟨ws,entry,hws,rfl,hidle⟩
    rw [(h.entered hws).2.1]
    exact ⟨entry,hws,by rw [beq_self_eq_true,hidle]; rfl⟩

theorem table_evict (s : Server) (ttlMs w : ℕ) :
    s.evicted ttlMs w = true ∧ (s.evict ttlMs).table w = { s.table w with running := false } ∨
      s.evicted ttlMs w = false ∧ (s.evict ttlMs).table w = s.table w := by
  cases hevicted : s.evicted ttlMs w with
  | true => exact .inl ⟨rfl,if_pos hevicted⟩
  | false => exact .inr ⟨rfl,if_neg (by rw [hevicted]; exact Bool.false_ne_true)⟩

theorem workers_evict {ttlMs : ℕ} :
    (s.evict ttlMs).workers ws = some entry ↔ s.workers ws = some entry ∧ s.idle ttlMs entry = false := by
  change (s.workers ws).filter _ = _ ↔ _
  rw [Option.filter_eq_some_iff,Bool.not_eq_true']

theorem evolves_evict (h : WellFormed s) (ttlMs : ℕ) : Evolves s (s.evict ttlMs) where
  nextWorker := rfl
  spawning := rfl
  workers hws := ⟨_,(workers_evict.mp hws).1,rfl⟩
  kept := by
    intro ws e hws hrunning
    refine ⟨e,workers_evict.mpr ⟨hws,?_⟩,rfl⟩
    rcases table_evict s ttlMs e.worker with ⟨_,heq⟩ | ⟨hevicted,_⟩
    · rw [heq] at hrunning
      exact absurd hrunning Bool.false_ne_true
    · by_contra hidle
      have := (evicted_iff h).mpr ⟨ws,e,hws,rfl,Bool.not_eq_false _ ▸ hidle⟩
      exact Bool.false_ne_true (hevicted.symm.trans this)
  fresh := by
    intro w hw
    rcases table_evict s ttlMs w with ⟨_,heq⟩ | ⟨_,heq⟩
    · rw [heq,h.fresh w hw]
      rfl
    · exact heq
  workspaceId := by
    intro w
    rcases table_evict s ttlMs w with ⟨_,heq⟩ | ⟨_,heq⟩ <;> rw [heq]
  ready := by
    intro w
    rcases table_evict s ttlMs w with ⟨_,heq⟩ | ⟨_,heq⟩ <;> rw [heq]
  running := by
    intro w hw
    rcases table_evict s ttlMs w with ⟨_,heq⟩ | ⟨_,heq⟩
    · rw [heq] at hw
      exact absurd hw Bool.false_ne_true
    · rwa [heq] at hw
  unready := by
    intro w _ hpending
    rcases table_evict s ttlMs w with ⟨_,heq⟩ | ⟨_,heq⟩ <;> rw [heq] <;> exact hpending
  waiting := by
    intro w r hr
    rcases table_evict s ttlMs w with ⟨_,heq⟩ | ⟨_,heq⟩ <;> rw [heq] at hr <;> exact .inl hr
  accounted := by
    intro r hr
    refine (h.accounted r hr).imp_right ?_
    rintro ⟨w,hw⟩
    refine ⟨w,?_⟩
    rcases table_evict s ttlMs w with ⟨_,heq⟩ | ⟨_,heq⟩ <;> rw [heq] <;> exact hw

def newborn (workspaceId : String) (requestId : ℕ) :
    WorkspaceWorker := ⟨workspaceId,true,false,[requestId],[],[]⟩

structure Creates (s t : Server) (ws : String) : Prop where
  workers : s.workers ws = none
  spawning : s.spawning ws = none
  table : t.table = Function.update s.table s.nextWorker (newborn ws s.nextRequest)
  nextWorker : t.nextWorker = s.nextWorker + 1
  pool : t.workers = s.workers
  spawns : t.spawning = Function.update s.spawning ws (some s.nextWorker)
  nextRequest : t.nextRequest = s.nextRequest + 1
  settled : t.settled = s.settled

theorem creates_runChain (hws : s.workers ws = none)
    (hspawning : s.spawning ws = none) (hconnected : connected ws = true) :
    Creates s (s.runChain connected ws) ws := by
  have heq : s.runChain connected ws =
      { s with nextRequest := s.nextRequest + 1 }.createWorkspaceWorker ws [s.nextRequest] := by
    simp only [Server.runChain,hws,hspawning,hconnected,if_true]
  rw [heq]
  exact ⟨hws,hspawning,rfl,rfl,rfl,rfl,rfl,rfl⟩

section Creation

variable {ws : String}

section

variable (hc : Creates s t ws)

include hc

theorem Creates.table_new : t.table s.nextWorker = newborn ws s.nextRequest := by
  rw [hc.table,Function.update_self]

theorem Creates.table_old {w : ℕ} (hw : w ≠ s.nextWorker) : t.table w = s.table w := by
  rw [hc.table,Function.update_of_ne hw]

theorem Creates.spawning_new : t.spawning ws = some s.nextWorker := by
  rw [hc.spawns,Function.update_self]

theorem Creates.spawning_old {other : String} (hother : other ≠ ws) :
    t.spawning other = s.spawning other := by
  rw [hc.spawns,Function.update_of_ne hother]

theorem Creates.keeps_spawn {other : String} {w : ℕ} (h : s.spawning other = some w) :
    t.spawning other = some w := by
  rw [hc.spawning_old (fun heq => by rw [heq,hc.spawning] at h; cases h),h]

end

theorem WellFormed.creates (h : WellFormed s) (hc : Creates s t ws) : WellFormed t where
  fresh w hw := by
    rw [hc.nextWorker] at hw
    rw [hc.table_old (by omega)]
    exact h.fresh w (by omega)
  unready w hw := by
    by_cases hnew : w = s.nextWorker
    · rw [hnew,hc.table_new]
      rfl
    · rw [hc.table_old hnew] at hw ⊢
      exact h.unready w hw
  spawned := by
    intro other w hspawning
    rw [hc.nextWorker]
    by_cases hother : other = ws
    · rw [hother,hc.spawning_new,Option.some.injEq] at hspawning
      rw [← hspawning,hc.table_new,hother]
      exact ⟨Nat.lt_succ_self _,rfl,rfl⟩
    · rw [hc.spawning_old hother] at hspawning
      obtain ⟨hlt,hid,hready⟩ := h.spawned hspawning
      rw [hc.table_old (by omega)]
      exact ⟨by omega,hid,hready⟩
  entered := by
    intro other entry hworkers
    rw [hc.pool] at hworkers
    obtain ⟨hlt,hid,hready⟩ := h.entered hworkers
    rw [hc.nextWorker,hc.table_old (by omega)]
    exact ⟨by omega,hid,hready⟩
  housed := by
    intro w hrunning
    by_cases hnew : w = s.nextWorker
    · rw [hnew,hc.table_new]
      exact .inl hc.spawning_new
    · rw [hc.table_old hnew] at hrunning ⊢
      rw [hc.pool]
      exact (h.housed w hrunning).imp_left hc.keeps_spawn
  exclusive := by
    intro other entry hworkers
    rw [hc.pool] at hworkers
    have hother : other ≠ ws := by
      rintro rfl
      rw [hc.workers] at hworkers
      cases hworkers
    rw [hc.spawning_old hother]
    exact h.exclusive hworkers
  waiting := by
    intro w r hr
    by_cases hnew : w = s.nextWorker
    · rw [hnew,hc.table_new]
      exact hc.spawning_new
    · rw [hc.table_old hnew] at hr ⊢
      exact hc.keeps_spawn (h.waiting w r hr)
  accounted := by
    refine accounted_next hc.nextRequest (fun r hr => ?_) (.inr ⟨s.nextWorker,.inl ?_⟩)
    · rw [hc.settled]
      refine (h.accounted r hr).imp_right ?_
      rintro ⟨w,hw⟩
      refine ⟨w,?_⟩
      have hold : w ≠ s.nextWorker := by
        rintro rfl
        rw [h.fresh _ le_rfl] at hw
        rcases hw with hw | hw <;> cases hw
      rwa [hc.table_old hold]
    · rw [hc.table_new]
      exact List.mem_cons_self

end Creation

structure Readies (s t : Server) (w : ℕ) : Prop where
  running : (s.table w).running = true
  unready : (s.table w).ready = false
  table : t.table = Function.update s.table w { s.table w with
    ready := true
    waiting := []
    pending := (s.table w).pending ++ (s.table w).waiting
    received := (s.table w).received ++ (s.table w).waiting }
  nextWorker : t.nextWorker = s.nextWorker
  pool : t.workers = Function.update s.workers (s.table w).workspaceId (some ⟨w,s.now⟩)
  spawns : t.spawning = Function.update s.spawning (s.table w).workspaceId none
  nextRequest : t.nextRequest = s.nextRequest
  settled : t.settled = s.settled

section Readiness

variable {w : ℕ}

theorem readies_onReady (hrunning : (s.table w).running = true) (hready : (s.table w).ready = false) :
    Readies s (s.onReady w) w := ⟨hrunning,hready,rfl,rfl,rfl,rfl,rfl,rfl⟩

theorem Readies.starting (hr : Readies s t w) (h : WellFormed s) :
    s.spawning (s.table w).workspaceId = some w := by
  rcases h.housed w hr.running with hspawning | ⟨entry,hworkers,rfl⟩
  · exact hspawning
  · exact absurd (h.entered hworkers).2.2 (by rw [hr.unready]; exact Bool.false_ne_true)

theorem Readies.table_old (hr : Readies s t w) {v : ℕ} (hv : v ≠ w) : t.table v = s.table v := by
  rw [hr.table,Function.update_of_ne hv]

variable {ws : String}

theorem Readies.other_spawn (hr : Readies s t w) (h : WellFormed s) {v : ℕ} (hv : v ≠ w)
    (hspawning : s.spawning ws = some v) : t.spawning ws = some v := by
  have hws : ws ≠ (s.table w).workspaceId := by
    rintro rfl
    rw [hr.starting h,Option.some.injEq] at hspawning
    exact hv hspawning.symm
  rw [hr.spawns,Function.update_of_ne hws,hspawning]

theorem Readies.other_entry (hr : Readies s t w) (h : WellFormed s) {entry : LazyWorkerEntry}
    (hworkers : s.workers ws = some entry) : ws ≠ (s.table w).workspaceId ∧ t.workers ws = some entry := by
  have hws : ws ≠ (s.table w).workspaceId := by
    rintro rfl
    have hnone := h.exclusive hworkers
    rw [hr.starting h] at hnone
    cases hnone
  exact ⟨hws,by rw [hr.pool,Function.update_of_ne hws,hworkers]⟩

theorem Readies.new_entry (hr : Readies s t w) {entry : LazyWorkerEntry}
    (hworkers : t.workers ws = some entry) :
    ws = (s.table w).workspaceId ∧ entry = ⟨w,s.now⟩ ∨ ws ≠ (s.table w).workspaceId ∧
    s.workers ws = some entry := by
  rw [hr.pool] at hworkers
  by_cases hws : ws = (s.table w).workspaceId
  · rw [hws,Function.update_self,Option.some.injEq] at hworkers
    exact .inl ⟨hws,hworkers.symm⟩
  · rw [Function.update_of_ne hws] at hworkers
    exact .inr ⟨hws,hworkers⟩

theorem Readies.new_spawn (hr : Readies s t w) {v : ℕ} (hspawning : t.spawning ws = some v) :
    ws ≠ (s.table w).workspaceId ∧ s.spawning ws = some v := by
  rw [hr.spawns] at hspawning
  by_cases hws : ws = (s.table w).workspaceId
  · rw [hws,Function.update_self] at hspawning
    cases hspawning
  · rw [Function.update_of_ne hws] at hspawning
    exact ⟨hws,hspawning⟩

theorem WellFormed.readies (h : WellFormed s) (hr : Readies s t w) : WellFormed t where
  fresh v hv := by
    rw [hr.nextWorker] at hv
    have hknown := h.known hr.running
    rw [hr.table_old (by omega)]
    exact h.fresh v hv
  unready v hv := by
    by_cases hvw : v = w
    · rw [hvw,hr.table,Function.update_self] at hv
      exact absurd hv.symm Bool.false_ne_true
    · rw [hr.table_old hvw] at hv ⊢
      exact h.unready v hv
  spawned := by
    intro ws v hspawning
    obtain ⟨hws,hspawning⟩ := hr.new_spawn hspawning
    obtain ⟨hlt,hid,hready⟩ := h.spawned hspawning
    have hv : v ≠ w := by
      rintro rfl
      exact hws hid.symm
    rw [hr.nextWorker,hr.table_old hv]
    exact ⟨hlt,hid,hready⟩
  entered := by
    intro ws entry hworkers
    rw [hr.nextWorker]
    rcases hr.new_entry hworkers with ⟨rfl,rfl⟩ | ⟨hws,hworkers⟩
    · rw [hr.table,Function.update_self]
      exact ⟨h.known hr.running,rfl,rfl⟩
    · obtain ⟨hlt,hid,hready⟩ := h.entered hworkers
      have hv : entry.worker ≠ w := by
        intro heq
        rw [heq] at hid
        exact hws hid.symm
      rw [hr.table_old hv]
      exact ⟨hlt,hid,hready⟩
  housed := by
    intro v hrunning
    by_cases hvw : v = w
    · refine .inr ⟨⟨w,s.now⟩,?_,hvw.symm⟩
      rw [hvw,hr.table,Function.update_self,hr.pool,Function.update_self]
    · rw [hr.table_old hvw] at hrunning ⊢
      rcases h.housed v hrunning with hspawning | ⟨entry,hworkers,heq⟩
      · exact .inl (hr.other_spawn h hvw hspawning)
      · exact .inr ⟨entry,(hr.other_entry h hworkers).2,heq⟩
  exclusive := by
    intro ws entry hworkers
    rcases hr.new_entry hworkers with ⟨rfl,_⟩ | ⟨hws,hworkers⟩
    · rw [hr.spawns,Function.update_self]
    · rw [hr.spawns,Function.update_of_ne hws]
      exact h.exclusive hworkers
  waiting := by
    intro v r hmem
    by_cases hvw : v = w
    · rw [hvw,hr.table,Function.update_self] at hmem
      cases hmem
    · rw [hr.table_old hvw] at hmem ⊢
      exact hr.other_spawn h hvw (h.waiting v r hmem)
  accounted := by
    intro r hlt
    rw [hr.nextRequest] at hlt
    refine h.still hr.table ?_ ?_ hlt
    · exact fun _ hmem => by rwa [hr.settled]
    · rintro r (hwaiting | hpending)
      · exact .inr (.inr (List.mem_append_right _ hwaiting))
      · exact .inr (.inr (List.mem_append_left _ hpending))

end Readiness

theorem WellFormed.reject (h : WellFormed s) :
    WellFormed { s with nextRequest := s.nextRequest + 1, settled := s.settled ++ [s.nextRequest] } :=
  ⟨h.fresh,h.unready,h.spawned,h.entered,h.housed,h.exclusive,h.waiting,
    accounted_next rfl (fun r hr => (h.accounted r hr).imp_left (List.mem_append_left _))
      (.inl (List.mem_append_right _ List.mem_cons_self))⟩

theorem runChain_cases (s : Server) (connected : String → Bool) (ws : String) :
    (∃ entry, s.workers ws = some entry) ∨ (∃ w, s.workers ws = none ∧ s.spawning ws = some w) ∨
      Creates s (s.runChain connected ws) ws ∨
      s.runChain connected ws =
        { s with nextRequest := s.nextRequest + 1, settled := s.settled ++ [s.nextRequest] } := by
  cases hworkers : s.workers ws with
  | some entry => exact .inl ⟨entry,rfl⟩
  | none =>
    cases hspawning : s.spawning ws with
    | some w => exact .inr (.inl ⟨w,rfl,rfl⟩)
    | none =>
      cases hconnected : connected ws with
      | true => exact .inr (.inr (.inl (creates_runChain hworkers hspawning hconnected)))
      | false =>
        refine .inr (.inr (.inr ?_))
        simp only [Server.runChain,hworkers,hspawning,hconnected,Bool.false_eq_true,if_false]

theorem WellFormed.runChain (h : WellFormed s) (connected : String → Bool) (ws : String) :
    WellFormed (s.runChain connected ws) := by
  rcases runChain_cases s connected ws with ⟨entry,hworkers⟩ | ⟨w,hworkers,hspawning⟩ | hcreates | heq
  · exact h.evolve (updates_existing h connected hworkers).evolves
  · exact h.evolve (updates_spawning h connected hworkers hspawning).evolves
  · exact h.creates hcreates
  · rw [heq]
    exact h.reject

theorem WellFormed.step (h : WellFormed s) (hstep : step d s a = some t) : WellFormed t := by
  cases a with
  | request ws =>
    cases hstep
    exact h.runChain d.connected ws
  | ready w =>
    obtain ⟨⟨hrunning,hready⟩,heq⟩ := Option.ite_none_right_eq_some.mp hstep
    cases heq
    exact h.readies (readies_onReady hrunning hready)
  | result w r =>
    obtain ⟨⟨hrunning,_⟩,heq⟩ := Option.ite_none_right_eq_some.mp hstep
    cases heq
    exact h.evolve (updates_onResult h hrunning).evolves
  | crash w =>
    obtain ⟨hrunning,heq⟩ := Option.ite_none_right_eq_some.mp hstep
    cases heq
    exact h.evolve (updates_onError h hrunning).evolves
  | evict =>
    cases hstep
    exact h.evolve (evolves_evict h d.workerTtlMs)
  | elapse ms =>
    cases hstep
    exact ⟨h.fresh,h.unready,h.spawned,h.entered,h.housed,h.exclusive,h.waiting,h.accounted⟩

end Jitsu.Rotor.WorkerPool
