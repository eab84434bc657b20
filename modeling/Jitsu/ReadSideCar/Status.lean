import Jitsu.ReadSideCar.StreamState

namespace Jitsu.ReadSideCar

open Lib Transition

def TellsTruth (cfg : Config) (s : SideCar) (r : Report) : Prop :=
  (∀ stats ∈ r.description, ∀ e ∈ stats, e.2.eventsCount = (s.done e.1).length ∧
    (e.2.status = .success → e.2.error = "" ∧ ∀ id ∈ s.arrived e.1, id ∈ s.done e.1)) ∧
  (r.status = .success → ∀ e ∈ cfg.catalog.entries,
    ∃ stats ∈ r.description, ∃ stat ∈ stats, stat.1 = e.1 ∧ stat.2.status = .success)

def Unfinished (s : SideCar) (name : String) : Prop := ∀ st ∈ s.streams.get name, st.status ≠ .success

def Phase.wasCancelled : Phase → Bool
  | .closing cancelled _ _ => cancelled
  | _ => false

def Timely (cfg : Config) (s : SideCar) : Action → Prop
  | .message (.record d _) _ => Unfinished s d.key
  | .message (.started d) _ => Unfinished s d.key
  | .message (.traceError d _ _) _ => Unfinished s d.key
  | .report => s.streams.entries ≠ [] ∨ cfg.catalog.entries = [] ∨ s.firstErr.isSome ∨ s.phase.wasCancelled
  | _ => True

def KeepsStatus (cfg : Config) (s : SideCar) (a : Action) : Prop := a.Worded ∧ Timely cfg s a

def Honest (s : SideCar) : Prop :=
  ∀ name st, s.streams.get name = some st → st.status = .success → st.error = ""

structure Working (s : SideCar) (name : String) : Prop where
  honest : Honest s
  unfinished : Unfinished s name

namespace Honest

variable {cfg : Config} {s t : SideCar} {name : String} {st : ActiveStream} {reply : Reply}

theorem congr (h : Honest s) (hst : t.streams = s.streams) : Honest t := by
  intro name st
  rw [hst]
  exact h name st

theorem put (h : Honest s) {r : ActiveStream × Option Chunk} (hr : r.1.status = .success → r.1.error = "") :
    Honest (s.put name r) := by
  intro n u hu
  by_cases hn : n = name
  · subst hn
    rw [SideCar.get_put_self,Option.some.injEq] at hu
    exact hu ▸ hr
  · rw [SideCar.get_put_ne hn] at hu
    exact h n u hu

theorem saveState (h : Honest s) (key : String) (origin : Option String) (data : Option Unsaved)
    (stored : Bool) :
    Honest (s.saveState cfg key origin data stored) :=
  h.congr (SideCar.saveState_frame cfg key origin data stored).2

theorem saveUnsaved (h : Honest s) (stored : Bool) : Honest (s.saveUnsaved cfg name stored) := by
  unfold SideCar.saveUnsaved
  split
  · exact h
  · next st hst => exact (h.saveState name (some name) st.unsavedState stored).put (h name st hst)

theorem checkpointIfNecessary (ht : Tracked cfg s) (h : Honest s) (target : Option String)
    (hanswer : reply.complete ≠ some "") : Honest (s.checkpointIfNecessary cfg target reply) := by
  unfold SideCar.checkpointIfNecessary
  split
  · exact h
  split
  · exact h
  next name _ st hst =>
  unfold SideCar.checkpoint
  split
  · exact h.saveUnsaved _
  split
  · exact h
  next hactive =>
  have hrunning := (ht.kept _ st hst).isActive_running (not_not.mp hactive)
  have hcommit : Honest (s.put name (st.commit false reply.complete)) := by
    refine h.put (fun hs => ?_)
    rw [commit_status st false hanswer,hrunning] at hs
    cases hs
  split
  · split
    · exact hcommit
    · exact hcommit.saveUnsaved _
  · exact h

theorem processState (ht : Tracked cfg s) (h : Honest s) (row : StateRow)
    (hanswer : reply.complete ≠ some "") :
    Honest (s.processState cfg row reply) := by
  unfold SideCar.processState
  split
  · exact (checkpointIfNecessary ht h s.lastStream hanswer).saveState _ _ _ _
  · split
    · exact h
    · next st hst =>
      exact checkpointIfNecessary (ht.putPlain hst ((ht.kept _ st hst).announced _))
        (h.put (h _ st hst)) _ hanswer
  · exact (checkpointIfNecessary ht h s.lastStream hanswer).saveState _ _ _ _
  · exact h

theorem closeOne (h : Honest s) (complete strict : Bool) :
    Honest (s.closeOne cfg name st complete strict reply) := by
  have hclose : Honest (s.put name (st.close complete s.cancelled strict reply.complete)) := by
    refine h.put ?_
    cases complete with
    | true => exact (concluded _ _).honest
    | false => exact (concluded _ _).honest
  unfold SideCar.closeOne
  split
  · exact hclose.saveUnsaved _
  · exact hclose

theorem closeStream (h : Honest s) (complete : Bool) : Honest (s.closeStream cfg name complete reply) := by
  unfold SideCar.closeStream
  split
  · exact h
  · exact h.closeOne complete false

theorem registerErr (h : Honest s) (err : String) : Honest (s.registerErr err) := by
  unfold SideCar.registerErr
  split
  · exact h.congr rfl
  · exact h

theorem processLog (h : Honest s) (level : LogLevel) (message : String) :
    Honest (s.processLog cfg level message) := by
  have hblame : Honest (s.blame message) := by
    unfold SideCar.blame
    split
    · exact h
    · next e he => exact h.put (h e.1 e.2 (Tracked.solelyRunning he).1)
  unfold SideCar.processLog
  split
  · split
    · exact hblame.registerErr _
    · exact hblame
  · exact h

end Honest

namespace Working

variable {cfg : Config} {s t : SideCar} {name : String} {st : ActiveStream} (h : Working s name)

include h

theorem put {r : ActiveStream × Option Chunk} (hr : r.1.status ≠ .success) :
    Working (s.put name r) name := by
  refine ⟨h.honest.put (fun hs => absurd hs hr),fun st hst => ?_⟩
  rw [SideCar.get_put_self] at hst
  cases hst
  exact hr

theorem congr (hst : t.streams = s.streams) : Working t name := by
  refine ⟨h.honest.congr hst,fun st => ?_⟩
  rw [hst]
  exact h.unfinished st

omit h in
theorem steered : Steered name (Working · name) fun st => st.status ≠ .success where
  put h hr := h.put hr
  held h hst := h.unfinished _ hst
  mark _ _ h := h.congr rfl
  fresh _ _ := by simp [newActiveStream]
  begun hb := by
    unfold ActiveStream.begin at hb
    split at hb
    · cases hb
    split at hb
    · cases hb
    · cases hb
      simp
  consumed {st u id size refusal} hs heq := by
    unfold ActiveStream.consume at heq
    split at heq
    · cases heq
      exact hs
    · cases refusal with
      | some err => cases heq
      | none =>
        cases heq
        exact hs
  registered err hs := by
    unfold ActiveStream.registerError
    split <;> exact hs

theorem processRecord (size : ℕ) (reply : Reply) :
    Working (s.processRecord cfg name size reply) name := by
  have ho := steered.openOrFail h cfg reply.create
  unfold SideCar.processRecord
  split
  · next heq =>
    rw [heq] at ho
    exact (steered.consumeRow ho size reply.consume).congr rfl
  · next heq =>
    rw [heq] at ho
    exact ho.congr rfl

end Working

theorem Honest.move {cfg : Config} {s t : SideCar} {a : Action} (ht : Tracked cfg s) (h : Honest s)
    (hok : KeepsStatus cfg s a) (hmove : Move cfg s a t) : Honest t := by
  obtain ⟨hworded,htimely⟩ := hok
  cases hmove with
  | message m reply _ =>
    suffices hm : Honest (s.processMessage cfg reply m) from hm.congr rfl
    cases m with
    | record d size => exact (Working.processRecord ⟨h,htimely⟩ size reply).honest
    | state line row =>
      simp only [SideCar.processMessage]
      split
      · exact (processState ht h row hworded.1).congr rfl
      · exact h
    | started d => exact (Working.steered.openOrFail ⟨h,htimely⟩ cfg reply.create).honest
    | finished d complete => exact h.closeStream complete
    | traceError d message internalMessage =>
      exact (Working.steered.processTraceError ⟨h,htimely⟩ message internalMessage).honest
    | log level message => exact h.processLog level message
    | ignored => exact h
  | cancel => exact h.congr rfl
  | endOfInput overtime _ => exact h.congr rfl
  | close name reply _ _ _ => exact h.closeOne _ true
  | report _ _ => exact h.congr rfl
  | crash => exact h.congr rfl

variable {cfg : Config} {s t : SideCar}

theorem stat_true (ht : Tracked cfg s) (h : Honest s) (cancelled timeExceeded : Bool) (name : String) :
    (s.stat cancelled timeExceeded name).eventsCount = (s.done name).length ∧
    ((s.stat cancelled timeExceeded name).status = .success →
      (s.stat cancelled timeExceeded name).error = "" ∧ ∀ id ∈ s.arrived name, id ∈ s.done name) := by
  unfold SideCar.stat
  split
  · next st hst =>
    have hk := ht.kept name st hst
    refine ⟨hk.events,fun hs => ⟨h name st hst hs,fun id hid => ?_⟩⟩
    have hs : st.status = .success := hs
    have hnone := hk.shut (hk.ended.resolve_left (by simp [hs]))
    rcases hk.owned (h name st hst hs) (by simp [hs]) id hid with hid | hid
    · exact hid
    · simp [ActiveStream.rows,hnone] at hid
  · next hnone =>
    rw [ht.unopened name hnone]
    split
    · exact ⟨rfl,fun hs => by cases hs⟩
    split
    · exact ⟨rfl,fun hs => by cases hs⟩
    · exact ⟨rfl,fun hs => by cases hs⟩

theorem outcome_success {firstErr : Option String} {cancelled timeExceeded : Bool}
    {stats : List (String × StreamStat)}
    (h : (SideCar.outcome cfg firstErr cancelled timeExceeded stats).1 = .success) :
    ∀ e ∈ stats, e.2.status = .success := by
  unfold SideCar.outcome at h
  split at h
  · next hall =>
    intro e he
    simpa using List.all_eq_true.mp hall e he
  split at h
  · cases h
  split at h
  · cases h
  split at h <;> cases h

theorem summary_description {cancelled timeExceeded : Bool} {stats : List (String × StreamStat)}
    (h : stats ∈ (s.summary cfg cancelled timeExceeded).description) :
    stats = cfg.catalog.entries.map (fun e => (e.1,s.stat cancelled timeExceeded e.1)) := by
  unfold SideCar.summary at h
  dsimp only at h
  split at h
  · split at h
    · cases h
    · cases h
      rfl
  · split at h
    · cases h
    split at h
    · cases h
    split at h <;> cases h

theorem summary_success {cancelled timeExceeded : Bool}
    (hprocessed : s.streams.entries ≠ [] ∨ cfg.catalog.entries = [] ∨ s.firstErr.isSome ∨ cancelled)
    (h : (s.summary cfg cancelled timeExceeded).status = .success) :
    ∀ e ∈ cfg.catalog.entries, ∃ stats ∈ (s.summary cfg cancelled timeExceeded).description,
      ∃ stat ∈ stats, stat.1 = e.1 ∧ stat.2.status = .success := by
  intro e he
  unfold SideCar.summary at h ⊢
  dsimp only at h ⊢
  split at h
  · next hstreams =>
    rw [if_pos hstreams]
    split at h
    · cases h
    · next hmatch =>
      have hmem : (e.1,s.stat cancelled timeExceeded e.1) ∈
          cfg.catalog.entries.map (fun e => (e.1,s.stat cancelled timeExceeded e.1)) := List.mem_map_of_mem he
      refine ⟨_,rfl,_,hmem,rfl,outcome_success h _ hmem⟩
  · next hstreams =>
    split at h
    · cases h
    next hfirst =>
    split at h
    · cases h
    split at h
    · cases h
    · next hcancelled =>
      rcases hprocessed with h1 | h1 | h1 | h1
      · exact absurd h1 hstreams
      · simp [h1] at he
      · simp [hfirst] at h1
      · exact absurd h1 hcancelled

theorem status_tells_truth (hs : (system cfg).Reachable (KeepsStatus cfg) s) (hok : KeepsStatus cfg s .report)
    (hstep : (system cfg).step s .report = some t) : ∃ r, t.report = some r ∧ TellsTruth cfg t r := by
  have hinv : Tracked cfg s ∧ Honest s := by
    refine hs.invariant (I := fun s => Tracked cfg s ∧ Honest s) ?_ ?_
    · rintro s rfl
      exact ⟨Tracked.start,nofun⟩
    · rintro s a t ⟨ht,h⟩ hok hstep
      have hmove := step_move cfg hstep
      exact ⟨ht.move hok.1 hmove,Honest.move ht h hok hmove⟩
  obtain ⟨ht,h⟩ := hinv
  have hmove : Move cfg s .report t := step_move cfg hstep
  cases hmove with
  | @report cancelled timeExceeded complete hphase hidle =>
    refine ⟨_,rfl,fun stats hstats e he => ?_,summary_success ?_⟩
    · rw [summary_description hstats] at he
      obtain ⟨entry,_,rfl⟩ := List.mem_map.mp he
      exact stat_true ht h cancelled timeExceeded entry.1
    · have htimely := hok.2
      simpa [Timely,hphase,Phase.wasCancelled] using htimely

instance (s : SideCar) (name : String) :
    Decidable (Unfinished s name) := inferInstanceAs (Decidable (∀ _ ∈ _, _))

instance (s : SideCar) : DecidablePred (Timely cfg s)
  | .message (.record _ _) _ | .message (.started _) _ | .message (.traceError _ _ _) _ =>
    inferInstanceAs (Decidable (Unfinished _ _))
  | .report => inferInstanceAs (Decidable (_ ∨ _))
  | .message (.finished _ _) _ | .message (.state _ _) _ | .message (.log _ _) _ | .message .ignored _
  | .cancel | .endOfInput _ | .close _ _ | .crash => isTrue trivial

instance (s : SideCar) (a : Action) : Decidable (KeepsStatus cfg s a) := inferInstanceAs (Decidable (_ ∧ _))

instance (s : SideCar) (r : Report) : Decidable (TellsTruth cfg s r) := inferInstanceAs (Decidable (_ ∧ _))

def ending : List Action := [.endOfInput false,.report]

def restarted : List Action := twoCheckpoints.take 3 ++ [.endOfInput false,.close "users" accepting]

theorem status_tells_truth_restarted :
    ∃ s t r, (system (sampleConfig "users" .incremental)).Reachable
      (KeepsStatus (sampleConfig "users" .incremental)) s ∧
      (system (sampleConfig "users" .incremental)).step s .report = some t ∧ t.report = some r ∧
      r.status = .success ∧ TellsTruth (sampleConfig "users" .incremental) t r := by
  have hrun : (((system (sampleConfig "users" .incremental)).guard
      (KeepsStatus (sampleConfig "users" .incremental))).run SideCar.start restarted).any
      (fun s => KeepsStatus (sampleConfig "users" .incremental) s .report ∧
        (step (sampleConfig "users" .incremental) s .report).any
          (fun t => t.report.any (fun r => r.status = .success))) := by decide +kernel
  simp only [Option.any_eq_true,decide_eq_true_eq] at hrun
  obtain ⟨s,hs,hok,t,ht,r,hr,hsuccess⟩ := hrun
  have hreach := (System.Reachable.initial rfl).guarded hs
  obtain ⟨r',hr',htruth⟩ := status_tells_truth hreach hok ht
  rw [hr,Option.some.injEq] at hr'
  exact ⟨s,t,r,hreach,ht,hr,hsuccess,hr' ▸ htruth⟩

def lateRecord : List Action :=
  [.message (.record users 10) accepting,.message (.finished users true) accepting,
    .message (.record users 10) accepting] ++ ending

def untoldTrace : List Action :=
  [.message (.record users 10) accepting,.message (.traceError users "" "") accepting,
    .message (.finished users true) accepting] ++ ending

def untoldComplete : List Action :=
  [.message (.record users 10) accepting,
    .message (.finished users true) { accepting with complete := some "" }] ++ ending

def Misreported (as : List Action) : Prop :=
  ((system (sampleConfig "users" .fullRefresh)).run SideCar.start as).any
    (fun s => s.report.any (fun r => ¬TellsTruth (sampleConfig "users" .fullRefresh) s r))

theorem status_misreported : Misreported lateRecord ∧ Misreported untoldTrace ∧ Misreported untoldComplete ∧
    Misreported ending := by
  unfold Misreported
  decide +kernel

end Jitsu.ReadSideCar
