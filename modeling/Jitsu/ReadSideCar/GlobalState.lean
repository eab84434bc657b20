import Jitsu.ReadSideCar.StreamState

namespace Jitsu.ReadSideCar

open Lib Transition

def SharedStatesBehind (s : SideCar) : Prop :=
  ∀ w ∈ s.writes, w.origin = none → ∀ r ∈ s.received, r.2 < w.clock →
    ∃ c ∈ w.committed, c.stream = r.1 ∧ r.2 ∈ c.chunk.rows

variable (cfg : Config)

def Flushable (s : SideCar) (reply : Reply) (name : String) (st : ActiveStream) : Prop :=
  s.lastStream = some name ∧ SideCar.commitsAtCheckpoint cfg st ∧ reply.complete = none

def SharedReady (s : SideCar) (reply : Reply) : Prop :=
  (∀ r ∈ s.received, (cfg.catalog.get r.1).isSome) ∧
  ∀ e ∈ s.streams.entries, e.2.error = "" ∧ e.2.status ≠ .cancelled ∧
    (e.2.rows = [] ∨ Flushable cfg s reply e.1 e.2)

def Gathered (s : SideCar) : Action → Prop
  | .message (.state line row) reply =>
    row.shared → s.lastStateMessage ≠ line → ¬s.isCriticalError cfg → SharedReady cfg s reply
  | _ => True

def KeepsShared (s : SideCar) (a : Action) : Prop := a.Worded ∧ Gathered cfg s a

variable {cfg} {s : SideCar} {name : String} {st : ActiveStream} {reply : Reply}

theorem commit_active (hactive : st.isActive) : (st.commit false none).1.error = "" := by
  obtain ⟨he,c,hc⟩ := isActive_iff.mp hactive
  simp [ActiveStream.commit,ActiveStream.drained,he,hc]

theorem done_mono {t : SideCar} (h : s.commits <+: t.commits) (name : String) : s.done name ⊆ t.done name := by
  obtain ⟨more,hmore⟩ := h
  intro id hid
  rw [SideCar.done,← hmore]
  simp only [doneIn,List.filter_append,List.flatMap_append,List.mem_append]
  exact .inl hid

theorem flushed_settled (ht : Tracked cfg s) (hst : s.streams.get name = some st) (he : st.error = "")
    (hrows : st.rows ≠ []) (hf : Flushable cfg s reply name st) :
    (s.checkpointIfNecessary cfg s.lastStream reply).Settled name := by
  obtain ⟨hlast,hcommits,hanswer⟩ := hf
  have hk := ht.kept name st hst
  have hactive : st.isActive := by
    cases hc : st.bulkerStream with
    | none => simp [ActiveStream.rows,hc] at hrows
    | some c => exact isActive_iff.mpr ⟨he,c,hc⟩
  have hrunning := hk.isActive_running hactive
  have herror := commit_active hactive
  have hcheckpoint : s.checkpointIfNecessary cfg s.lastStream reply =
      (s.put name (st.commit false none)).saveUnsaved cfg name reply.streamStored := by
    simp [SideCar.checkpointIfNecessary,SideCar.checkpoint,hlast,hst,hrunning,hactive,hcommits,hanswer,herror]
  have hframe := SideCar.saveUnsaved_frame (s := s.put name (st.commit false none)) cfg name reply.streamStored
  have hsettled := Covered.settled_put (hk.settled (by simp) (by simp [hrunning]) herror)
  rw [hcheckpoint]
  intro id hid
  rw [SideCar.done,hframe.commits]
  rw [SideCar.arrived,hframe.received] at hid
  exact hsettled id hid

theorem checkpoint_settled (ht : Tracked cfg s) (hr : SharedReady cfg s reply) (name : String) :
    (s.checkpointIfNecessary cfg s.lastStream reply).Settled name := by
  have hf := SideCar.checkpointIfNecessary_frame (s := s) cfg s.lastStream reply
  intro id hid
  have hid' : id ∈ s.arrived name := by rwa [SideCar.arrived,hf.received] at hid
  have hcat : (cfg.catalog.get name).isSome := by
    obtain ⟨r,hmem,_⟩ := List.mem_map.mp hid'
    obtain ⟨hmem,hname⟩ := List.mem_filter.mp hmem
    have hname : r.1 = name := by simpa using hname
    exact hname ▸ hr.1 r hmem
  cases hst : s.streams.get name with
  | none =>
    rw [ht.absent name hcat hst] at hid'
    cases hid'
  | some st =>
    obtain ⟨he,hstatus,hrows⟩ := hr.2 (name,st) (s.streams.get_mem hst)
    by_cases hempty : st.rows = []
    · rcases (ht.kept name st hst).owned he hstatus id hid' with hdone | hmem
      · exact done_mono hf.commits name hdone
      · simp [hempty] at hmem
    · exact flushed_settled ht hst he hempty (hrows.resolve_left hempty) id hid

variable (cfg)

theorem shared_state_behind_data (hs : (system cfg).Reachable (KeepsShared cfg) s) : SharedStatesBehind s := by
  have hown : Owning cfg (fun o _ => o = none) := ⟨nofun,nofun⟩
  have hinv : Tracked cfg s ∧ Covered (fun o _ => o = none) s := by
    refine hs.invariant (I := fun s => Tracked cfg s ∧ Covered (fun o _ => o = none) s) ?_ ?_
    · rintro s rfl
      exact ⟨Tracked.start,nofun⟩
    · rintro s a t ⟨ht,hc⟩ ⟨hworded,hgathered⟩ hstep
      have hmove := step_move cfg hstep
      refine ⟨ht.move hworded hmove,Covered.move hown ht hc hworded ?_ ?_ hmove⟩
      · rintro d reply st _ _ ⟨⟩
      rintro line row reply n rfl hline hrow hcritical _
      exact checkpoint_settled ht (hgathered hrow hline hcritical) n
  intro w hw horigin r hr hlt
  have hid : r.2 ∈ s.arrived r.1 := List.mem_map.mpr ⟨r,List.mem_filter.mpr ⟨hr,by simp⟩,rfl⟩
  obtain ⟨c,hc,hrows⟩ := List.mem_flatMap.mp ((hinv.2 w hw r.1 horigin).2 r.2 hid hlt)
  obtain ⟨hc,hstream⟩ := List.mem_filter.mp hc
  exact ⟨c,hc,by simpa using hstream,hrows⟩

instance : DecidablePred SharedStatesBehind := fun _ => inferInstanceAs (Decidable (∀ _ ∈ _, _))

instance (s : SideCar) (reply : Reply) (name : String) (st : ActiveStream) :
    Decidable (Flushable cfg s reply name st) :=
  inferInstanceAs (Decidable (_ ∧ _))

instance (s : SideCar) (reply : Reply) : Decidable (SharedReady cfg s reply) :=
  inferInstanceAs (Decidable (_ ∧ _))

instance (s : SideCar) : DecidablePred (Gathered cfg s)
  | .message (.state _ _) _ => inferInstanceAs (Decidable (_ → _))
  | .message (.finished _ _) _ | .message (.record _ _) _ | .message (.started _) _
  | .message (.traceError _ _ _) _ | .message (.log _ _) _ | .message .ignored _
  | .cancel | .endOfInput _ | .close _ _ | .report | .crash => isTrue trivial

instance (s : SideCar) (a : Action) : Decidable (KeepsShared cfg s a) := inferInstanceAs (Decidable (_ ∧ _))

def sharedConfig (mode : SyncMode) : Config :=
  { sampleConfig "users" mode with catalog := (OrderedMap.empty.set "users" mode).set "orders" mode }

def orders : Descriptor := ⟨"","orders"⟩

def oneAfterTheOther : List Action :=
  [.message (.record users 10) accepting,.message (.finished users true) accepting,
    .message (.record orders 10) accepting,.message (.state "1" (.global "1")) accepting,
    .message (.record orders 10) accepting,.message (.state "2" (.legacy "2")) accepting]

theorem shared_state_behind_data_oneAfterTheOther :
    ∃ s, (system (sharedConfig .incremental)).Reachable (KeepsShared (sharedConfig .incremental)) s ∧
      s.writes.length = 2 ∧ SharedStatesBehind s := by
  have hrun : (((system (sharedConfig .incremental)).guard (KeepsShared (sharedConfig .incremental))).run
      SideCar.start oneAfterTheOther).any (fun s => s.writes.length = 2) := by decide +kernel
  simp only [Option.any_eq_true,decide_eq_true_eq] at hrun
  obtain ⟨s,hs,hwrites⟩ := hrun
  have hr := (System.Reachable.initial rfl).guarded hs
  exact ⟨s,hr,hwrites,shared_state_behind_data _ hr⟩

def fullRefreshState : List Action :=
  [.message (.record users 10) accepting,.message (.state "1" (.global "1")) accepting]

def interleaved : List Action :=
  [.message (.record users 10) accepting,.message (.record orders 10) accepting,
    .message (.state "1" (.global "1")) accepting]

def failedCommit : List Action :=
  [.message (.record users 10) accepting,
    .message (.state "1" (.legacy "1")) { accepting with complete := some "table is locked" }]

def notInCatalog : List Action :=
  [.message (.record ⟨"","events"⟩ 10) accepting,.message (.state "1" (.global "1")) accepting]

def SharedAhead (cfg : Config) (as : List Action) : Prop :=
  ((system cfg).run SideCar.start as).any (fun s => ¬SharedStatesBehind s)

theorem shared_state_ahead : SharedAhead (sharedConfig .fullRefresh) fullRefreshState ∧
    SharedAhead (sharedConfig .incremental) interleaved ∧
    SharedAhead (sharedConfig .incremental) failedCommit ∧
    SharedAhead (sharedConfig .incremental) notInCatalog := by
  unfold SharedAhead
  decide +kernel

end Jitsu.ReadSideCar
