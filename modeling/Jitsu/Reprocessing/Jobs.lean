import Jitsu.Lib.Transition

namespace Jitsu.Reprocessing

inductive Status where
  | pending
  | running
  | completed
  | failed
  | cancelled
deriving DecidableEq

def Status.Final (status : Status) : Prop := status = .completed ∨ status = .failed ∨ status = .cancelled

structure Job where
  status : Status
  startedAt : Option ℕ
  completedAt : Option ℕ
  k8sJobName : String
  totalWorkers : ℕ
  lastError : String
deriving DecidableEq

inductive Exec where
  | done
  | lost
  | refused
deriving DecidableEq

def updateReprocessingJobStatus (row : Job) (exec : Exec) (status : Status) (startedAt completedAt : Option ℕ)
    (errorMsg : String) : Job :=
  if exec = .refused then row
  else {row with status := status,startedAt := startedAt,completedAt := completedAt,lastError := errorMsg}

def updateReprocessingJobK8sName (row : Job) (exec : Exec) (k8sJobName : String) : Job :=
  if exec = .refused then row else {row with k8sJobName := k8sJobName}

structure K8sStatus where
  active : ℕ
  succeeded : ℕ
  failed : ℕ
  completionTime : Option ℕ

inductive Reply where
  | status (k8sStatus : K8sStatus)
  | notFound (workers : Option (List String))
  | error

structure Outcome where
  status : Status
  completedAt : ℕ
  error : String

def enrichJobWithK8sStatus (job : Job) (k : K8sStatus) (now : ℕ) : Option Outcome :=
  if k.completionTime.isSome ∨ (k.failed = job.totalWorkers ∧ k.active = 0) then
    if 0 < k.failed ∧ k.active = 0 then some ⟨.failed,k.completionTime.getD now,"K8s job has failed pods"⟩
    else some ⟨.completed,k.completionTime.getD now,""⟩
  else none

def checkCompletionFromWorkers (job : Job) (workers : List String) (now : ℕ) : Option Outcome :=
  if workers = [] then none
  else if workers.count "completed" + workers.count "failed" = job.totalWorkers then
    if 0 < workers.count "failed" then some ⟨.failed,now,
    toString (workers.count "failed") ++ " workers failed"⟩
    else some ⟨.completed,now,""⟩
  else none

def enriched (job : Job) (now : ℕ) : Reply → Option Outcome
  | .status k => enrichJobWithK8sStatus job k now
  | .notFound (some workers) => checkCompletionFromWorkers job workers now
  | .notFound none => none
  | .error => none

inductive Op where
  | start
  | get
  | cancel
deriving DecidableEq

inductive Phase where
  | creating
  | failing (error : String)
  | naming
  | starting
  | querying
  | storing (outcome : Outcome)
  | enriched
  | cancelling
  | cancelled

structure Thread where
  op : Op
  job : Job
  seen : Status
  phase : Phase

inductive Input where
  | created (reply : Except String String) (now : ℕ)
  | reply (reply : Reply) (now : ℕ)
  | executed (exec : Exec) (now : ℕ)
  | proceed

inductive Returned where
  | error
  | job (status : Status)
  | cancelled
deriving DecidableEq

structure Turn where
  row : Job
  next : Thread ⊕ Returned

def Thread.saw (th : Thread) (exec : Exec) (status : Status) (phase : Phase) : Thread :=
  {th with seen := if exec = .refused then th.seen else status,phase := phase}

def Thread.advance (th : Thread) (row : Job) (i : Input) : Option Turn :=
  match th.phase,i with
  | .creating,.created (.error error) _ => some ⟨row,.inl {th with phase := .failing error}⟩
  | .creating,.created (.ok name) now =>
    some ⟨row,.inl {th with
      job := {th.job with k8sJobName := name,status := .running,startedAt := some now},phase := .naming}⟩
  | .failing error,.executed exec _ =>
    some ⟨updateReprocessingJobStatus row exec .failed none none error,.inr .error⟩
  | .naming,.executed exec _ =>
    some ⟨updateReprocessingJobK8sName row exec th.job.k8sJobName,.inl {th with phase := .starting}⟩
  | .starting,.executed exec _ =>
    some ⟨updateReprocessingJobStatus row exec .running th.job.startedAt none "",
    .inl (th.saw exec .running .enriched)⟩
  | .querying,.reply reply now =>
    match Reprocessing.enriched th.job now reply with
    | none => some ⟨row,.inl {th with phase := .enriched}⟩
    | some o =>
      some ⟨row,.inl {th with
        job := {th.job with status := o.status,completedAt := some o.completedAt},phase := .storing o}⟩
  | .storing o,.executed exec _ =>
    some ⟨updateReprocessingJobStatus row exec o.status none (some o.completedAt) o.error,
      .inl (th.saw exec o.status .enriched)⟩
  | .enriched,.proceed =>
    if th.op ≠ .cancel then some ⟨row,.inr (.job th.job.status)⟩
    else if th.job.status = .completed ∨ th.job.status = .cancelled then some ⟨row,.inr .error⟩
    else some ⟨row,.inl {th with phase := .cancelling}⟩
  | .cancelling,.executed exec now =>
    some ⟨updateReprocessingJobStatus row exec .cancelled none (some now) "",
      if exec = .done then .inl {th with phase := .cancelled} else .inr .error⟩
  | .cancelled,.proceed => some ⟨row,.inr .cancelled⟩
  | _,_ => none

def Thread.opened (op : Op) (row : Job) : Thread :=
  ⟨op,row,row.status,if row.status = .running ∧ row.k8sJobName ≠ "" then .querying else .enriched⟩

structure State where
  row : Job
  threads : ℕ → Option Thread
  cancelReturned : Bool
  shown : List Status

inductive Action where
  | request (t : ℕ) (op : Op)
  | advance (t : ℕ) (i : Input)

def State.close (s : State) (t : ℕ) (row : Job) (returned : Returned) : State where
  row := row
  threads := Function.update s.threads t none
  cancelReturned := s.cancelReturned || returned = .cancelled
  shown := match returned with
    | .job status => if s.cancelReturned then status :: s.shown else s.shown
    | _ => s.shown

def State.turn (s : State) (t : ℕ) (turn : Turn) : State :=
  match turn.next with
  | .inl th => {s with row := turn.row,threads := Function.update s.threads t (some th)}
  | .inr returned => s.close t turn.row returned

def jobs : Transition.System State Action where
  initial s := ∃ totalWorkers,
    s = let row : Job := ⟨.pending,none,none,"",totalWorkers,""⟩
      ⟨row,fun t => if t = 0 then some ⟨.start,row,.pending,.creating⟩ else none,false,[]⟩
  step s
    | .request t op =>
      if (s.threads t).isNone ∧ op ≠ .start then
        some {s with threads := Function.update s.threads t (some (.opened op s.row))}
      else none
    | .advance t i => do
      let th ← s.threads t
      let turn ← th.advance s.row i
      some (s.turn t turn)

def Thread.Undisturbed (th : Thread) (row : Job) : Input → Bool
  | .created reply _ => reply.isOk
  | .reply _ _ => true
  | .executed exec _ => exec = .refused || th.phase matches .naming ||
    ((row.status = th.seen || row.status = th.job.status) &&
      !(th.phase matches .cancelling && row.status = .failed))
  | .proceed => th.phase matches .cancelled || row.status = th.seen || row.status = th.job.status

def Undisturbed (s : State) : Action → Prop
  | .request _ _ => True
  | .advance t i => ∀ th ∈ s.threads t, th.Undisturbed s.row i = true

instance (s : State) (a : Action) : Decidable (Undisturbed s a) :=
  match a with
  | .request _ _ => inferInstanceAs (Decidable True)
  | .advance t i => inferInstanceAs (Decidable (∀ th ∈ s.threads t, th.Undisturbed s.row i = true))

def Dated (row : Job) : Prop := row.status.Final → row.completedAt.isSome

structure Kept (row row' : Job) : Prop where
  status : row.status.Final → row'.status = row.status
  dated : Dated row → Dated row'

def Thread.Sound (th : Thread) (row : Job) : Prop :=
  (th.seen.Final → th.job.status = th.seen) ∧
    match th.phase with
    | .creating => th.seen = .pending
    | .failing _ => False
    | .naming => th.seen = .pending ∧ th.job.status = .running
    | .starting => th.seen = .pending ∧ th.job.status = .running
    | .querying => th.seen = .running
    | .storing o => th.seen = .running ∧ th.job.status = o.status
    | .enriched => True
    | .cancelling => th.job.status ≠ .completed ∧ th.job.status ≠ .cancelled
    | .cancelled => row.status = .cancelled

structure Turn.Sound (turn : Turn) (row : Job) : Prop where
  kept : Kept row turn.row
  thread : ∀ {th}, turn.next = .inl th → th.Sound turn.row
  shown : ∀ {status}, turn.next = .inr (.job status) → row.status = .cancelled → status = .cancelled
  cancelled : turn.next = .inr .cancelled → turn.row.status = .cancelled

variable {row : Job} {th : Thread} {exec : Exec}

theorem not_final_pending : ¬ Status.Final .pending := nofun

theorem not_final_running : ¬ Status.Final .running := nofun

theorem Kept.refl (row : Job) : Kept row row := ⟨fun _ => rfl,id⟩

theorem Kept.name (row : Job) (exec : Exec) (name : String) :
    Kept row (updateReprocessingJobK8sName row exec name) := by
  unfold updateReprocessingJobK8sName
  split
  · exact Kept.refl row
  · exact ⟨fun _ => rfl,id⟩

theorem Kept.update {status : Status} {startedAt completedAt : Option ℕ} {error : String}
    (h : exec ≠ .refused → row.status.Final → status = row.status) (hd : status.Final → completedAt.isSome) :
    Kept row (updateReprocessingJobStatus row exec status startedAt completedAt error) := by
  unfold updateReprocessingJobStatus
  split
  · exact Kept.refl row
  · next hexec => exact ⟨h hexec,fun _ => hd⟩

theorem Thread.Sound.of_kept {row' : Job} (h : th.Sound row) (hk : Kept row row') : th.Sound row' := by
  refine ⟨h.1,?_⟩
  have hphase := h.2
  cases hp : th.phase with
  | cancelled =>
    rw [hp] at hphase
    exact (hk.status (.inr (.inr hphase))).trans hphase
  | _ =>
    rw [hp] at hphase
    exact hphase

theorem Thread.opened_sound (op : Op) (row : Job) : (Thread.opened op row).Sound row := by
  unfold Thread.opened
  split
  · next h => exact ⟨fun _ => rfl,h.1⟩
  · exact ⟨fun _ => rfl,trivial⟩

theorem Thread.known {now : ℕ} (h : th.Undisturbed row (.executed exec now) = true) (he : exec ≠ .refused)
    (hp : th.phase ≠ .naming) : row.status = th.seen ∨ row.status = th.job.status := by
  unfold Thread.Undisturbed at h
  dsimp only at h
  split at h
  · next hn => exact absurd hn hp
  · simp only [he,decide_false,Bool.false_or,Bool.and_eq_true,Bool.or_eq_true,decide_eq_true_eq] at h
    exact h.1

theorem Thread.not_failed {now : ℕ} (h : th.Undisturbed row (.executed exec now) = true) (he : exec ≠ .refused)
    (hp : th.phase = .cancelling) : row.status ≠ .failed := by
  intro hf
  simp [Thread.Undisturbed,he,hp,hf] at h

theorem Thread.saw_enriched {status : Status} {row' : Job} (hs : th.seen.Final → th.job.status = th.seen)
    (h : status.Final → th.job.status = status) : (th.saw exec status .enriched).Sound row' := by
  refine ⟨?_,trivial⟩
  unfold Thread.saw
  dsimp only
  split
  · exact hs
  · exact h

theorem Thread.Sound.advance {i : Input} {turn : Turn} (h : th.Sound row) (hu : th.Undisturbed row i = true)
    (ha : th.advance row i = some turn) : turn.Sound row := by
  obtain ⟨hseen,hphase⟩ := h
  unfold Thread.advance at ha
  split at ha
  · simp [Thread.Undisturbed,Except.isOk,Except.toBool] at hu
  case h_2 hp =>
    cases ha
    rw [hp] at hphase
    exact ⟨Kept.refl row,by rintro _ ⟨⟩; exact ⟨fun hf => absurd (hphase ▸ hf) not_final_pending,hphase,rfl⟩,
      nofun,nofun⟩
  case h_3 hp =>
    rw [hp] at hphase
    exact hphase.elim
  case h_4 hp =>
    cases ha
    rw [hp] at hphase
    exact ⟨Kept.name ..,by rintro _ ⟨⟩; exact ⟨hseen,hphase⟩,nofun,nofun⟩
  case h_5 exec _ hp =>
    cases ha
    rw [hp] at hphase
    have hlive : exec ≠ .refused → ¬ row.status.Final := by
      intro he hf
      rcases Thread.known hu he (by simp [hp]) with h | h
      · exact not_final_pending (hphase.1 ▸ h ▸ hf)
      · exact not_final_running (hphase.2 ▸ h ▸ hf)
    exact ⟨Kept.update (fun he hf => absurd hf (hlive he)) (fun hf => absurd hf not_final_running),
      by rintro _ ⟨⟩; exact Thread.saw_enriched hseen (fun _ => hphase.2),nofun,nofun⟩
  case h_6 hp =>
    rw [hp] at hphase
    split at ha
    · cases ha
      exact ⟨Kept.refl row,by rintro _ ⟨⟩; exact ⟨hseen,trivial⟩,nofun,nofun⟩
    · cases ha
      refine ⟨Kept.refl row,?_,nofun,nofun⟩
      rintro _ ⟨⟩
      exact ⟨fun hf => absurd (hphase ▸ hf) not_final_running,hphase,rfl⟩
  case h_7 o exec _ hp =>
    cases ha
    rw [hp] at hphase
    have hsame : exec ≠ .refused → row.status.Final → o.status = row.status := by
      intro he hf
      rcases Thread.known hu he (by simp [hp]) with h | h
      · exact absurd (hphase.1 ▸ h ▸ hf) not_final_running
      · exact (h.trans hphase.2).symm
    exact ⟨Kept.update hsame (fun _ => rfl),
      by rintro _ ⟨⟩; exact Thread.saw_enriched hseen (fun _ => hphase.2),nofun,nofun⟩
  case h_8 hp =>
    split at ha
    · cases ha
      refine ⟨Kept.refl row,nofun,?_,nofun⟩
      rintro _ ⟨⟩ hcancelled
      simp only [Thread.Undisturbed,hp,Bool.false_or,Bool.or_eq_true,decide_eq_true_eq,hcancelled] at hu
      rcases hu with hu | hu
      · exact (hseen (hu ▸ .inr (.inr rfl))).trans hu.symm
      · exact hu.symm
    · split at ha
      · cases ha
        exact ⟨Kept.refl row,nofun,nofun,nofun⟩
      · next hlive =>
        cases ha
        exact ⟨Kept.refl row,by rintro _ ⟨⟩; exact ⟨hseen,not_or.mp hlive⟩,nofun,nofun⟩
  case h_9 exec now hp =>
    cases ha
    rw [hp] at hphase
    have hlive : exec ≠ .refused → ¬ row.status.Final := by
      intro he hf
      have hjob : row.status = th.job.status := by
        rcases Thread.known hu he (by simp [hp]) with h | h
        · exact h.trans (hseen (h ▸ hf)).symm
        · exact h
      rcases hf with hf | hf | hf
      · exact hphase.1 (hjob ▸ hf)
      · exact Thread.not_failed hu he hp hf
      · exact hphase.2 (hjob ▸ hf)
    refine ⟨Kept.update (fun he hf => absurd hf (hlive he)) (fun _ => rfl),?_,?_,?_⟩
    · intro next hnext
      dsimp only at hnext
      split at hnext
      · next hdone =>
        cases hnext
        refine ⟨hseen,?_⟩
        rw [hdone]
        rfl
      · cases hnext
    · intro status hnext
      dsimp only at hnext
      split at hnext <;> cases hnext
    · intro hnext
      dsimp only at hnext
      split at hnext <;> cases hnext
  case h_10 hp =>
    cases ha
    rw [hp] at hphase
    exact ⟨Kept.refl row,nofun,nofun,fun _ => hphase⟩
  · cases ha

structure State.Sound (s : State) : Prop where
  dated : Dated s.row
  threads : ∀ {t th}, s.threads t = some th → th.Sound s.row
  cancelled : s.cancelReturned = true → s.row.status = .cancelled
  shown : ∀ status ∈ s.shown, status = .cancelled

variable {s : State}

theorem State.Sound.initial (h : jobs.initial s) : s.Sound := by
  obtain ⟨totalWorkers,rfl⟩ := h
  refine ⟨fun hf => absurd hf not_final_pending,?_,nofun,nofun⟩
  intro t th ht
  dsimp only at ht
  split at ht
  · cases ht
    exact ⟨fun hf => absurd hf not_final_pending,rfl⟩
  · cases ht

theorem State.Sound.update (h : s.Sound) {row : Job} (hk : Kept s.row row) (t : ℕ)
    {next : Option Thread}
    (hn : ∀ th, next = some th → th.Sound row) {u : ℕ} {th : Thread}
    (hu : Function.update s.threads t next u = some th) : th.Sound row := by
  by_cases ht : u = t
  · subst ht
    rw [Function.update_self] at hu
    exact hn th hu
  · rw [Function.update_of_ne ht] at hu
    exact (h.threads hu).of_kept hk

theorem State.Sound.turn (h : s.Sound) (t : ℕ) {turn : Turn} (ht : turn.Sound s.row) :
    (s.turn t turn).Sound ∧ Kept s.row (s.turn t turn).row := by
  have hcancelled : s.cancelReturned = true → turn.row.status = .cancelled := fun hc =>
    (ht.kept.status (.inr (.inr (h.cancelled hc)))).trans (h.cancelled hc)
  unfold State.turn
  cases hn : turn.next with
  | inl th =>
    refine ⟨⟨ht.kept.dated h.dated,h.update ht.kept t ?_,hcancelled,h.shown⟩,ht.kept⟩
    rintro _ ⟨⟩
    exact ht.thread hn
  | inr returned =>
    have hnone (th : Thread) (hth : none = some th) : th.Sound turn.row := nomatch hth
    refine ⟨⟨ht.kept.dated h.dated,h.update ht.kept t hnone,?_,?_⟩,ht.kept⟩
    · intro hc
      rcases Bool.or_eq_true_iff.mp hc with hc | hc
      · exact hcancelled hc
      · exact ht.cancelled (by rw [hn,of_decide_eq_true hc])
    · cases returned with
      | job status =>
        dsimp only [State.close]
        split
        · next hc => exact List.forall_mem_cons.mpr ⟨ht.shown hn (h.cancelled hc),h.shown⟩
        · exact h.shown
      | _ => exact h.shown

theorem State.Sound.step {s' : State} {a : Action} (h : s.Sound) (hu : Undisturbed s a)
    (hs : jobs.step s a = some s') : s'.Sound ∧ Kept s.row s'.row := by
  cases a with
  | request t op =>
    obtain ⟨-,hs⟩ := Option.ite_none_right_eq_some.mp hs
    cases hs
    refine ⟨⟨h.dated,h.update (Kept.refl _) t ?_,h.cancelled,h.shown⟩,Kept.refl _⟩
    rintro _ ⟨⟩
    exact Thread.opened_sound op s.row
  | advance t i =>
    obtain ⟨th,hth,hs⟩ := Option.bind_eq_some_iff.mp hs
    obtain ⟨turn,hturn,hs⟩ := Option.bind_eq_some_iff.mp hs
    cases hs
    exact h.turn t ((h.threads hth).advance (hu th hth) hturn)

theorem State.Sound.run {s' : State} {as : List Action} (h : s.Sound)
    (hr : (jobs.guard Undisturbed).run s as = some s') : s'.Sound ∧ Kept s.row s'.row := by
  induction as generalizing s with
  | nil =>
    cases hr
    exact ⟨h,Kept.refl _⟩
  | cons a as ih =>
    obtain ⟨u,hu,hr⟩ := (jobs.guard Undisturbed).run_cons.mp hr
    obtain ⟨hok,hu⟩ := Option.ite_none_right_eq_some.mp hu
    obtain ⟨hsound,hkept⟩ := h.step hok hu
    obtain ⟨hend,hrest⟩ := ih hsound hr
    refine ⟨hend,fun hf => ?_,fun hd => hrest.dated (hkept.dated hd)⟩
    have hstatus := hkept.status hf
    exact (hrest.status (hstatus ▸ hf)).trans hstatus

theorem job_outcome_final {start s s' : State} {before after : List Action} (hi : jobs.initial start)
    (hb : (jobs.guard Undisturbed).run start before = some s)
    (ha : (jobs.guard Undisturbed).run s after = some s') :
    (s.row.status.Final → s'.row.status = s.row.status ∧ s'.row.completedAt.isSome) ∧
    ∀ status ∈ s'.shown, status ≠ .running ∧ status ≠ .completed := by
  obtain ⟨hs,-⟩ := (State.Sound.initial hi).run hb
  obtain ⟨hs',hkept⟩ := hs.run ha
  refine ⟨fun hf => ?_,fun status hstatus => ?_⟩
  · have hsame := hkept.status hf
    exact ⟨hsame,hs'.dated (hsame ▸ hf)⟩
  · rw [hs'.shown status hstatus]
    exact ⟨nofun,nofun⟩

def sampleJob : State :=
  let row : Job := ⟨.pending,none,none,"",1,""⟩
  ⟨row,fun t => if t = 0 then some ⟨.start,row,.pending,.creating⟩ else none,false,[]⟩

def sampleStart : List Action :=
  [.advance 0 (.created (.ok "reprocessing-1") 5),.advance 0 (.executed .done 5),
    .advance 0 (.executed .done 5),
    .advance 0 .proceed]

def samplePolling : List Action :=
  [.request 1 .get,.request 2 .get,.advance 1 (.reply (.status ⟨0,1,0,some 9⟩) 10),
    .advance 1 (.executed .done 10),
    .advance 2 (.reply (.notFound (some ["completed"])) 11),.advance 2
    (.executed .done 11),.advance 2 .proceed]

def sampleReading : List Action := [.request 3 .cancel,.advance 3 .proceed,.advance 1 .proceed]

def sampleSettled : State :=
  ((jobs.guard Undisturbed).run sampleJob (sampleStart ++ samplePolling)).getD sampleJob

def sampleCancel : List Action :=
  [.request 1 .get,.request 2 .cancel,.advance 2 (.reply (.status ⟨1,0,0,none⟩) 7),.advance 2 .proceed,
    .advance 2 (.executed .done 8),.advance 2 .proceed]

def sampleRead : State := ((jobs.guard Undisturbed).run sampleSettled sampleReading).getD sampleJob

def sampleCancelled : State :=
  ((jobs.guard Undisturbed).run sampleJob (sampleStart ++ sampleCancel)).getD sampleJob

def sampleShown : State :=
  ((jobs.guard Undisturbed).run sampleCancelled [.request 3 .get,.advance 3 .proceed]).getD sampleJob

theorem job_outcome_final_polled :
    (sampleSettled.row.status = .completed ∧
      (sampleSettled.row.status.Final → sampleRead.row.status = sampleSettled.row.status ∧
        sampleRead.row.completedAt.isSome) ∧
      ∀ status ∈ sampleRead.shown, status ≠ .running ∧ status ≠ .completed) ∧
    sampleCancelled.cancelReturned = true ∧ sampleShown.shown = [.cancelled] ∧
      (sampleCancelled.row.status.Final → sampleShown.row.status = sampleCancelled.row.status ∧
        sampleShown.row.completedAt.isSome) ∧
      ∀ status ∈ sampleShown.shown, status ≠ .running ∧ status ≠ .completed := by
  have hsettled : (jobs.guard Undisturbed).run sampleJob
    (sampleStart ++ samplePolling) = some sampleSettled := rfl
  have hread : (jobs.guard Undisturbed).run sampleSettled sampleReading = some sampleRead := rfl
  have hcancelled : (jobs.guard Undisturbed).run sampleJob
    (sampleStart ++ sampleCancel) = some sampleCancelled := rfl
  have hshown : (jobs.guard Undisturbed).run sampleCancelled [.request 3 .get,.advance 3 .proceed] =
    some sampleShown := rfl
  exact ⟨⟨rfl,job_outcome_final ⟨1,rfl⟩ hsettled hread⟩,rfl,rfl,job_outcome_final ⟨1,rfl⟩ hcancelled hshown⟩

def sampleLateReply : List Action :=
  [.advance 1 (.reply (.status ⟨0,1,0,some 9⟩) 10),.advance 1 (.executed .done 10),.advance 1 .proceed]

def sampleRefused : List Action := [.advance 0 (.created (.error "quota") 5),.advance 0 (.executed .done 5)]

theorem job_outcomes_overwritten :
    (jobs.run sampleJob (sampleStart ++ sampleCancel)).map (fun s => (s.row.status,s.cancelReturned)) =
      some (.cancelled,true) ∧
    (jobs.run sampleJob (sampleStart ++ sampleCancel ++ sampleLateReply)).map
    (fun s => (s.row.status,s.shown)) =
      some (.completed,[.completed]) ∧
    (jobs.run sampleJob sampleRefused).map (fun s => (s.row.status,s.row.completedAt)) = some (.failed,none) ∧
    (jobs.run sampleJob (sampleRefused ++ [.request 1 .cancel,.advance 1 .proceed,
      .advance 1 (.executed .done 6)])).map (fun s => s.row.status) = some .cancelled :=
  ⟨rfl,rfl,rfl,rfl⟩

end Jitsu.Reprocessing
