import Jitsu.Bulker.BatchConsumer

namespace Jitsu.Bulker

open Jitsu.Log Jitsu.Transition

def Pending (S : ℕ → Prop) (offsets : List ℕ) (o : ℕ) : Prop := S o ∨ o ∈ offsets

variable {S : ℕ → Prop} {xs : List ℕ}

theorem Pending.of_settled (o : ℕ) (h : S o) : Pending S xs o := .inl h

theorem Pending.append (ys : List ℕ) (o : ℕ) (h : Pending S xs o) :
    Pending S (xs ++ ys) o := h.imp id (fun h => List.mem_append_left _ h)

theorem Pending.last (o : ℕ) : Pending S (xs ++ [o]) o := .inr (by simp)

def offsetsOf (produced : List Produced) : List ℕ := produced.map Produced.offset

variable {S : ℕ → Prop} {cfg : Config} {sub : Subscription Message}

namespace Failing

def settledStage : Stage → Bool
  | .groupMetadata => true
  | .beginTransaction => true
  | _ => false

structure Sound (S : ℕ → Prop) (sub : Subscription Message) (f : Failing) : Prop where
  commited : Covered sub.log S f.commitedPosition
  position : positioned f.stage → Covered sub.log (Pending S (offsetsOf f.produced)) sub.position
  message : ∀ o, f.message = some o → Covered sub.log (Pending S (offsetsOf f.produced)) (o + 1)
  commit : ∀ offset, f.stage = .commit offset → Covered sub.log (Pending S (offsetsOf f.produced)) offset
  settled : settledStage f.stage → ∀ o ∈ offsetsOf f.produced, S o
  opened : positioned f.stage = false → f.produced = [] ∧ f.message = none

structure Progress.Sound (S : ℕ → Prop) (p : Progress) : Prop where
  committed : Covered p.sub.log (Pending S (offsetsOf p.published)) p.sub.committed
  running : ∀ f, p.status = .running f → Failing.Sound (Pending S (offsetsOf p.published)) p.sub f
  ended : (∀ f, p.status ≠ .running f) → Covered p.sub.log (Pending S (offsetsOf p.published)) p.sub.position

variable {f : Failing}

theorem Sound.weaken {S' : ℕ → Prop} (h : Sound S sub f) (hs : ∀ o, S o → S' o) :
    Sound S' sub f := by
  have hp : ∀ o, Pending S (offsetsOf f.produced) o → Pending S' (offsetsOf f.produced) o :=
    fun o ho => ho.imp (hs o) id
  exact {
    commited := h.commited.weaken hs
    position := fun hf => (h.position hf).weaken hp
    message := fun o ho => (h.message o ho).weaken hp
    commit := fun o ho => (h.commit o ho).weaken hp
    settled := fun hf o ho => hs o (h.settled hf o ho)
    opened := h.opened }

theorem Sound.grow (h : Sound S sub f) (records : Records Message) :
    Sound S (sub.append records) f where
  commited := h.commited.grow records
  position hf := (h.position hf).grow records
  message o ho := (h.message o ho).grow records
  commit o ho := (h.commit o ho).grow records
  settled := h.settled
  opened := h.opened

theorem sound_start {first : ℕ} (failed : ℕ) (err : String) (h : Covered sub.log S first) :
    Sound S sub (start first failed err) where
  commited := h
  position hf := by cases hf
  message o ho := by cases ho
  commit o ho := by cases ho
  settled hf := by cases hf
  opened _ := ⟨rfl,rfl⟩

theorem sound_continued (hc : Covered sub.log S f.commitedPosition)
    (hp : Covered sub.log (Pending S (offsetsOf f.produced)) sub.position)
    (hm : ∀ o, f.message = some o → Covered sub.log (Pending S (offsetsOf f.produced)) (o + 1)) :
    Sound S sub (continued cfg f) := by
  have hs : (continued cfg f).stage = .sendOffsets ∨ (continued cfg f).stage = .read := by
    unfold Failing.continued
    dsimp only
    split
    · exact .inl rfl
    · exact .inr rfl
  have hpos : positioned (continued cfg f).stage = true := by
    rcases hs with h | h <;> rw [h] <;> rfl
  refine ⟨hc,fun _ => hp,hm,?_,?_,?_⟩
  · intro offset ho
    rcases hs with h | h <;> rw [h] at ho <;> cases ho
  · intro hf
    rcases hs with h | h <;> rw [h] at hf <;> cases hf
  · intro hf
    rw [hpos] at hf
    cases hf

theorem progress_running (hc : Covered sub.log S sub.committed) (h : Sound S sub f) :
    Progress.Sound S (f.running sub) where
  committed := hc.weaken Pending.of_settled
  running f' hf := by
    cases hf
    exact h.weaken Pending.of_settled
  ended hn := absurd rfl (hn f)

theorem progress_abort {published : List Produced}
    (hc : Covered sub.log (Pending S (offsetsOf published)) sub.committed)
    (h : Covered sub.log S f.commitedPosition) : Progress.Sound S (f.abort sub published) where
  committed := hc
  running f' hf := by cases hf
  ended _ := h.weaken Pending.of_settled

theorem Sound.stage {stage : Stage} (h : Sound S sub f) (hp : positioned stage = true)
    (hc : ∀ offset, stage = .commit offset → Covered sub.log (Pending S (offsetsOf f.produced)) offset)
    (hs : settledStage stage = true → settledStage f.stage = true) (hf : positioned f.stage = true) :
    Sound S sub { f with stage := stage } where
  commited := h.commited
  position _ := h.position hf
  message := h.message
  commit := hc
  settled ht := h.settled (hs ht)
  opened hn := by
    rw [hp] at hn
    cases hn

section

variable (hc : Covered sub.log S sub.committed)

include hc

theorem read_sound (h : Sound S sub f)
    (hf : positioned f.stage = true) (reply : ReadReply) (produced : Bool) (now : ℕ) :
    Progress.Sound S (f.read cfg sub reply produced now) := by
  have habort : Progress.Sound S (f.abort sub []) :=
    progress_abort (hc.weaken Pending.of_settled) h.commited
  unfold read
  split
  · exact habort
  · split
    · refine progress_running hc (sound_continued h.commited (h.position hf) ?_)
      intro o ho
      cases ho
    · exact habort
  · rename_i o m sub' hr
    obtain ⟨hn,rfl⟩ := readMessage_message hr
    split
    · have hlast : Covered sub.log (Pending S (offsetsOf (f.produce cfg now o m).produced)) (o + 1) := by
        refine ((h.position hf).weaken ?_).read hn ?_
        · intro i hi
          rw [offsetsOf,produce,List.map_append]
          exact hi.append _
        · rw [offsetsOf,produce,List.map_append]
          exact Pending.last o
      refine progress_running hc (sound_continued h.commited hlast ?_)
      rintro _ ⟨⟩
      exact hlast
    · exact progress_abort (hc.weaken Pending.of_settled) h.commited

theorem sendOffsets_sound (h : Sound S sub f)
    (hf : f.stage = .sendOffsets) (ok : Bool) : Progress.Sound S (f.sendOffsets sub ok) := by
  have habort : Progress.Sound S (f.abort sub []) :=
    progress_abort (hc.weaken Pending.of_settled) h.commited
  unfold sendOffsets
  split
  · exact habort
  · rename_i o ho
    split
    · refine progress_running hc (h.stage rfl ?_ ?_ (by rw [hf]; rfl))
      · rintro _ ⟨⟩
        exact h.message o ho
      · intro hs
        cases hs
    · exact habort

theorem commitTransaction_sound (h : Sound S sub f)
    {offset : ℕ} (hf : f.stage = .commit offset) (reply : Commit) :
    Progress.Sound S (f.commitTransaction sub offset reply) := by
  have hp : Covered sub.log (Pending S (offsetsOf f.produced)) sub.position :=
    h.position (by rw [hf]; rfl)
  have hoff := h.commit offset hf
  cases reply with
  | failed applied =>
    cases applied with
    | false => exact progress_abort (hc.weaken Pending.of_settled) h.commited
    | true => exact progress_abort hoff h.commited
  | ok =>
    unfold commitTransaction
    dsimp only
    split
    · exact ⟨hoff,fun f' hf' => (by cases hf'),fun _ => hp⟩
    · refine ⟨hoff,?_,fun hn => absurd rfl (hn _)⟩
      rintro _ ⟨⟩
      exact {
        commited := hoff
        position := fun _ => hp.weaken Pending.of_settled
        message := fun o ho => (h.message o ho).weaken Pending.of_settled
        commit := nofun
        settled := fun _ o ho => .inr ho
        opened := nofun }

end

theorem read_log (f : Failing) (reply : ReadReply) (produced : Bool) (now : ℕ) :
    (f.read cfg sub reply produced now).sub.log = sub.log := by
  unfold read
  split
  · rfl
  · split <;> rfl
  · rename_i hr
    obtain ⟨_,rfl⟩ := readMessage_message hr
    split <;> rfl

theorem sendOffsets_log (f : Failing) (ok : Bool) : (f.sendOffsets sub ok).sub.log = sub.log := by
  unfold sendOffsets
  split
  · rfl
  · split <;> rfl

theorem commitTransaction_log (f : Failing) (offset : ℕ) (reply : Commit) :
    (f.commitTransaction sub offset reply).sub.log = sub.log := by
  have h := commitOffset_log sub reply offset
  unfold commitTransaction
  dsimp only
  split
  · exact h
  · split <;> exact h

theorem step_log {p : Progress} {reply : FailedReply} (hstep : f.step cfg sub reply = some p) :
    p.sub.log = sub.log := by
  cases reply with
  | read reply produced now =>
    simp only [step] at hstep
    split at hstep <;> cases hstep
    exact read_log f reply produced now
  | commit reply =>
    simp only [step] at hstep
    split at hstep <;> cases hstep
    exact commitTransaction_log f _ reply
  | call ok =>
    simp only [step] at hstep
    split at hstep <;> cases hstep
    case h_5 => exact sendOffsets_log f ok
    all_goals split <;> rfl

theorem step_sound {p : Progress} {reply : FailedReply}
    (hc : Covered sub.log S sub.committed) (h : Sound S sub f) (hstep : f.step cfg sub reply = some p) :
    Progress.Sound S p := by
  have habort : Progress.Sound S (f.abort sub []) :=
    progress_abort (hc.weaken Pending.of_settled) h.commited
  cases reply with
  | read reply produced now =>
    simp only [step] at hstep
    split at hstep
    · rename_i hs
      cases hstep
      exact read_sound hc h (by rw [hs]; rfl) reply produced now
    · cases hstep
  | commit reply =>
    simp only [step] at hstep
    split at hstep
    · rename_i offset hs
      cases hstep
      exact commitTransaction_sound hc h hs reply
    · cases hstep
  | call ok =>
    simp only [step] at hstep
    split at hstep <;> cases hstep
    case h_5 hs => exact sendOffsets_sound hc h hs ok
    all_goals
      rename_i hs
      cases ok
      · exact habort
    · have ho := h.opened (by rw [hs]; rfl)
      refine progress_running hc ⟨h.commited,nofun,h.message,nofun,
        nofun,fun _ => ho⟩
    · have ho := h.opened (by rw [hs]; rfl)
      refine progress_running hc ⟨h.commited,fun _ => h.commited.weaken Pending.of_settled,h.message,
        nofun,?_,nofun⟩
      intro _ o hmem
      rw [offsetsOf,ho.1] at hmem
      cases hmem
    · exact progress_running hc (h.stage rfl nofun (fun _ => by rw [hs]; rfl)
        (by rw [hs]; rfl))
    · have hsettled : ∀ o, Pending S (offsetsOf f.produced) o → Pending S [] o := by
        rintro o (ho | ho)
        · exact .inl ho
        · exact .inl (h.settled (by rw [hs]; rfl) o ho)
      exact progress_running hc (sound_continued h.commited ((h.position (by rw [hs]; rfl)).weaken hsettled)
        (fun o ho => (h.message o ho).weaken hsettled))

end Failing

structure Batch.Sound (S : ℕ → Prop) (sub : Subscription Message) (b : Batch) : Prop where
  position : Covered sub.log (Pending S b.processed) sub.position
  first : ∀ o, b.firstPosition = some o → Covered sub.log S o
  latest : ∀ o, b.latestMessage = some o → sub.position = o + 1
  empty : b.firstPosition = none ∨ b.latestMessage = none → b.processed = []

structure Completing (S : ℕ → Prop) (sub : Subscription Message) (b : Batch) (first latest : ℕ) : Prop where
  start : Covered sub.log S first
  covered : Covered sub.log (Pending S b.processed) (latest + 1)
  position : sub.position = latest + 1

structure Loaded (S : ℕ → Prop) (sub : Subscription Message) (latest : ℕ) : Prop where
  covered : Covered sub.log S (latest + 1)
  position : sub.position = latest + 1

def Secure (S : ℕ → Prop) (sub : Subscription Message) (retired : Bool) : Phase → Prop
  | .idle => retired = false → Covered sub.log S sub.position
  | .batches _ => retired = false → Covered sub.log S sub.position
  | .reading b => b.Sound S sub
  | .completing b first latest => Completing S sub b first latest
  | .committing _ latest => Loaded S sub latest
  | .restarting (.afterCommit _ latest _) => Loaded S sub latest
  | .restarting (.afterFailed _) => Covered sub.log S sub.position
  | .recommitting _ latest => Loaded S sub latest
  | .failing _ _ _ f => f.Sound S sub

theorem Loaded.current {latest : ℕ} (h : Loaded S sub latest) : Covered sub.log S sub.position := by
  rw [h.position]
  exact h.covered

theorem Secure.grow {retired : Bool} {phase : Phase} (h : Secure S sub retired phase)
    (records : Records Message) : Secure S (sub.append records) retired phase := by
  cases phase with
  | idle => exact fun hr => (h hr).grow records
  | batches _ => exact fun hr => (h hr).grow records
  | reading b => exact ⟨h.position.grow records,fun o ho => (h.first o ho).grow records,h.latest,h.empty⟩
  | completing b first latest => exact ⟨h.start.grow records,h.covered.grow records,h.position⟩
  | committing b latest => exact ⟨h.covered.grow records,h.position⟩
  | restarting r =>
    cases r with
    | afterCommit b latest committed => exact ⟨h.covered.grow records,h.position⟩
    | afterFailed b => exact Covered.grow h records
  | recommitting b latest => exact ⟨h.covered.grow records,h.position⟩
  | failing b latest err f => exact Failing.Sound.grow h records

theorem Secure.retire {retired : Bool} {phase : Phase} (h : Secure S sub retired phase) :
    Secure S sub true phase := by
  cases phase with
  | idle => exact nofun
  | batches _ => exact nofun
  | restarting r => cases r <;> exact h
  | _ => exact h

namespace Consumer

def Settled (c : Consumer) (o : ℕ) : Prop := o ∈ c.loaded ∨ ∃ p ∈ c.published, p.offset = o

structure Base (c : Consumer) : Prop where
  committed : Covered c.sub.log c.Settled c.sub.committed
  replacement : ∀ p, c.replacement = some p → Covered c.sub.log c.Settled p

structure Safe (c : Consumer) : Prop extends Base c where
  phase : Secure c.Settled c.sub c.retired c.phase

def readFails : Action → Bool
  | .read (.failed _) _ _ => true
  | _ => false

def Undisturbed (c : Consumer) (a : Action) : Prop :=
  readFails a = true → ∀ b, c.phase = .reading b → b.latestMessage = none

variable {c c' : Consumer}

theorem Base.enter (h : Base c) {phase : Phase} (hp : Secure c.Settled c.sub c.retired phase) :
    Safe (c.enter phase) := ⟨⟨h.committed,h.replacement⟩,hp⟩

theorem Base.afterBatch (h : Base c) (b : Batch) (nextBatch : Bool)
    (hp : Covered c.sub.log c.Settled c.sub.position) : Safe (c.afterBatch b nextBatch) := by
  refine h.enter ?_
  split <;> exact fun _ => hp

theorem Base.initConsumer (h : Base c) : Base c.initConsumer := by
  refine ⟨h.committed,?_⟩
  rintro _ ⟨⟩
  exact h.committed

theorem Base.loadConsumer (h : Base c) : Base c.loadConsumer := by
  unfold Consumer.loadConsumer
  split
  · exact h
  · exact ⟨h.committed,nofun⟩

theorem loadConsumer_settled (c : Consumer) : c.loadConsumer.Settled = c.Settled := by
  unfold loadConsumer
  split <;> rfl

theorem loadConsumer_log (c : Consumer) : c.loadConsumer.sub.log = c.sub.log := by
  unfold loadConsumer
  split <;> rfl

theorem Base.loaded_position (h : Base c) (hp : Covered c.sub.log c.Settled c.sub.position) :
    Covered c.loadConsumer.sub.log c.loadConsumer.Settled c.loadConsumer.sub.position := by
  rw [loadConsumer_settled,loadConsumer_log]
  unfold Consumer.loadConsumer
  split
  · exact hp
  · exact h.replacement _ ‹_›

theorem Base.enterFailed (h : Base c) (b : Batch) {first : ℕ} (latest : ℕ) (err : String)
    (hf : Covered c.sub.log c.Settled first) : Safe (c.enterFailed b first latest err) := by
  refine h.loadConsumer.enter (Failing.sound_start latest err ?_)
  rw [loadConsumer_settled,loadConsumer_log]
  exact hf

theorem Base.committing (h : Base c) {offset : ℕ} (ho : Covered c.sub.log c.Settled offset)
    (reply : Commit) : Base { c with sub := commitOffset c.sub reply offset } := by
  unfold commitOffset
  split
  · exact ⟨ho,h.replacement⟩
  · exact h

theorem consumeAll_safe (h : Safe c) (hc : c.phase = .idle) (leased created known : Bool)
    (watermark : Option ℕ) : Safe (c.consumeAll leased created known watermark) := by
  have hp := h.phase
  rw [hc] at hp
  unfold consumeAll
  split
  · exact h
  split
  · exact ⟨⟨h.committed,h.replacement⟩,h.phase.retire⟩
  split
  · exact h
  split
  · exact h
  exact iteInduction (fun _ => h.toBase.enter hp) (fun _ => h)

theorem beginBatch_safe (h : Safe c) {highOffset : ℕ} (hc : c.phase = .batches highOffset) (unchanged : Bool) :
    Safe (c.beginBatch highOffset unchanged) := by
  have hp := h.phase
  rw [hc] at hp
  unfold beginBatch
  split
  · exact h.toBase.enter hp
  · rename_i hn
    have hr : c.retired = false := by simpa using fun hr => hn (.inl hr)
    have hpos := h.toBase.loaded_position (hp hr)
    refine h.toBase.loadConsumer.enter ⟨hpos.weaken Pending.of_settled,?_,?_,fun _ => rfl⟩
    · intro o ho
      cases ho
    · intro o ho
      cases ho

variable {b : Batch}

theorem unprocessed_position (hb : b.Sound S sub) (hn : b.processed = []) :
    Covered sub.log S sub.position := by
  refine hb.position.weaken ?_
  rintro o (ho | ho)
  · exact ho
  · rw [hn] at ho
    cases ho

theorem endOfBatch_safe (h : Base c) (hb : b.Sound c.Settled c.sub) (nextBatch : Bool) :
    Safe (c.endOfBatch cfg b nextBatch) := by
  unfold endOfBatch
  cases hfirst : b.firstPosition with
  | none => exact h.afterBatch b nextBatch (unprocessed_position hb (hb.empty (.inl hfirst)))
  | some first =>
    cases hlatest : b.latestMessage with
    | none => exact h.afterBatch b nextBatch (unprocessed_position hb (hb.empty (.inr hlatest)))
    | some latest =>
      have hp := hb.latest latest hlatest
      refine h.enter ⟨hb.first first hfirst,?_,hp⟩
      rw [← hp]
      exact hb.position

theorem stop_safe (h : Safe c) (hc : c.phase = .reading b) (hs : c.stop cfg b = some c') :
    Safe c' := by
  have hp := h.phase
  rw [hc] at hp
  unfold stop at hs
  split at hs
  · cases hs
  · rename_i he
    cases hs
    refine h.toBase.enter ?_
    have hr : c.retired = true := by
      unfold loopExit at he
      split_ifs at he <;> first | assumption | cases he
    intro hr'
    rw [hr] at hr'
    cases hr'
  · cases hs
    exact endOfBatch_safe h.toBase hp _

theorem read_safe (h : Safe c) (hc : c.phase = .reading b) {reply : ReadReply}
    (hok : ∀ retriable, reply = .failed retriable → b.latestMessage = none)
    (createStream consumeJSON : Option String) :
    Safe (c.read cfg b reply createStream consumeJSON) := by
  have hb : b.Sound c.Settled c.sub := by
    have hp := h.phase
    rw [hc] at hp
    exact hp
  unfold read
  split
  · exact endOfBatch_safe h.toBase hb false
  · rename_i retriable hr
    have hl : b.latestMessage = none := by
      cases reply with
      | timedOut => cases hr
      | failed retriable' => exact hok retriable' rfl
      | message =>
        rw [readMessage] at hr
        split at hr <;> cases hr
    exact h.toBase.enter (fun _ => unprocessed_position hb (hb.empty (.inr hl)))
  · rename_i o m sub hr
    obtain ⟨hn,rfl⟩ := readMessage_message hr
    have hfirst : Covered c.sub.log c.Settled (b.firstPosition.getD o) := by
      cases hf : b.firstPosition with
      | none => exact (unprocessed_position hb (hb.empty (.inl hf))).upTo hn
      | some first => exact hb.first first hf
    have hbase : Base { c with sub := c.sub.seek (o + 1) } := ⟨h.committed,h.replacement⟩
    dsimp only
    split
    · exact hbase.enterFailed _ o _ hfirst
    · refine hbase.enter ⟨?_,?_,?_,?_⟩
      · exact (hb.position.weaken (Pending.append [o])).read hn (Pending.last o)
      · rintro _ ⟨⟩
        exact hfirst
      · rintro _ ⟨⟩
        rfl
      · rintro (hf | hf) <;> cases hf

variable {latest : ℕ}

theorem complete_safe (h : Safe c) {first : ℕ} (hc : c.phase = .completing b first latest)
    (outcome : Completion) : Safe (c.complete cfg b first latest outcome) := by
  have hp : Completing c.Settled c.sub b first latest := by
    have hp := h.phase
    rw [hc] at hp
    exact hp
  unfold complete
  split
  · have hs : ∀ o, Pending c.Settled b.processed o →
        Settled { c with loaded := c.loaded ++ b.processed } o := by
      rintro o ((ho | ho) | ho)
      · exact .inl (List.mem_append_left _ ho)
      · exact .inr ho
      · exact .inl (List.mem_append_right _ ho)
    have hbase : Base { c with loaded := c.loaded ++ b.processed } :=
      ⟨h.committed.weaken (fun o ho => hs o (.inl ho)),
        fun p hr => (h.replacement p hr).weaken (fun o ho => hs o (.inl ho))⟩
    exact hbase.enter ⟨hp.covered.weaken hs,hp.position⟩
  · exact h.toBase.enterFailed b latest _ hp.start

theorem Base.commitLoaded (h : Base c) (hl : Loaded c.Settled c.sub latest) (reply : Commit) :
    Base { c with sub := commitOffset c.sub reply (latest + 1) } ∧
      Loaded c.Settled (commitOffset c.sub reply (latest + 1)) latest := by
  refine ⟨h.committing hl.covered reply,?_,?_⟩
  · rw [commitOffset_log]
    exact hl.covered
  · rw [commitOffset_position]
    exact hl.position

theorem commitMessage_safe (h : Base c) (hl : Loaded c.Settled c.sub latest)
    (reply : Commit) : Safe (c.commitMessage b latest reply) := by
  obtain ⟨hbase,hl'⟩ := h.commitLoaded hl reply
  cases reply with
  | ok => exact hbase.afterBatch b b.nextBatch hl'.current
  | failed applied =>
    refine hbase.enter ?_
    split <;> exact hl'

theorem recommitMessage_safe (h : Base c) (hl : Loaded c.Settled c.sub latest)
    (reply : Commit) : Safe (c.recommitMessage b latest reply) := by
  obtain ⟨hbase,hl'⟩ := h.commitLoaded hl reply
  cases reply with
  | ok => exact hbase.afterBatch b b.nextBatch hl'.current
  | failed applied => exact hbase.afterBatch b false hl'.current

theorem alterOffsets_safe (h : Base c) (hl : Loaded c.Settled c.sub latest)
    (alter : Option Commit) : Base (c.alterOffsets latest alter) ∧
      Loaded (c.alterOffsets latest alter).Settled (c.alterOffsets latest alter).sub latest := by
  cases alter with
  | none => exact ⟨h,hl⟩
  | some reply => exact h.commitLoaded hl reply

theorem restartConsumer_safe (h : Safe c) {r : Restart} (hc : c.phase = .restarting r)
    (alter : Option Commit) (created : Bool) : Safe (c.restartConsumer r alter created) := by
  have hp := h.phase
  rw [hc] at hp
  cases r with
  | afterFailed b =>
    unfold restartConsumer
    dsimp only
    split
    · exact h.toBase.initConsumer.afterBatch b false hp
    · exact h
  | afterCommit b latest committed =>
    obtain ⟨hbase,hl⟩ := alterOffsets_safe h.toBase hp alter
    unfold restartConsumer
    dsimp only
    split
    · exact hbase.enter hl
    · split
      · exact hbase.initConsumer.afterBatch b b.nextBatch hl.current
      · exact hbase.initConsumer.enter hl

theorem settled_published (c : Consumer) (sub : Subscription Message) (published : List Produced) :
    Settled { c with sub := sub, published := c.published ++ published } =
      Pending c.Settled (offsetsOf published) := by
  funext o
  simp only [Settled,Pending,offsetsOf,List.mem_append,List.mem_map,eq_iff_iff]
  constructor
  · rintro (ho | ⟨p,hp | hp,ho⟩)
    · exact .inl (.inl ho)
    · exact .inl (.inr ⟨p,hp,ho⟩)
    · exact .inr ⟨p,hp,ho⟩
  · rintro ((ho | ⟨p,hp,ho⟩) | ⟨p,hp,ho⟩)
    · exact .inl ho
    · exact .inr ⟨p,.inl hp,ho⟩
    · exact .inr ⟨p,.inr hp,ho⟩

theorem processFailed_safe (h : Safe c) {err : String} {f : Failing}
    (hc : c.phase = .failing b latest err f) {reply : FailedReply}
    (hs : c.processFailed cfg b latest err f reply = some c') : Safe c' := by
  have hp := h.phase
  rw [hc] at hp
  obtain ⟨p,hstep,rfl⟩ := Option.map_eq_some_iff.mp hs
  have hprog := Failing.step_sound h.committed hp hstep
  have hlog : p.sub.log = c.sub.log := Failing.step_log hstep
  have hset := settled_published c p.sub p.published
  have hbase : Base { c with sub := p.sub, published := c.published ++ p.published } := by
    refine ⟨?_,?_⟩
    · rw [hset]
      exact hprog.committed
    · intro q hq
      rw [hset,hlog]
      exact (h.replacement q hq).weaken Pending.of_settled
  have hended : (∀ f', p.status ≠ .running f') → Covered p.sub.log
      (Settled { c with sub := p.sub, published := c.published ++ p.published }) p.sub.position := by
    rw [hset]
    exact hprog.ended
  split
  · rename_i f' hf'
    refine hbase.enter ?_
    have hf := hprog.running f' hf'
    rw [← hset] at hf
    exact hf
  · rename_i hf'
    exact hbase.afterBatch b _ (hended (fun _ hn => by rw [hf'] at hn; cases hn))
  · rename_i hf'
    have hpos := hended (fun _ hn => by rw [hf'] at hn; cases hn)
    split
    · exact hbase.afterBatch b false hpos
    · exact hbase.enter hpos

theorem step_safe {a : Action} (h : Safe c) (hok : c.Undisturbed a) (hs : c.step cfg a = some c') :
    Safe c' := by
  cases a with
  | append records =>
    cases hs
    exact ⟨⟨h.committed.grow records,fun p hp => (h.replacement p hp).grow records⟩,h.phase.grow records⟩
  | retire =>
    cases hs
    exact ⟨⟨h.committed,h.replacement⟩,h.phase.retire⟩
  | replace =>
    cases hs
    exact ⟨h.toBase.initConsumer,h.phase⟩
  | restart =>
    cases hs
    exact ⟨⟨h.committed,nofun⟩,fun _ => h.committed⟩
  | consumeAll leased created known watermark =>
    simp only [step] at hs
    split at hs <;> cases hs
    exact consumeAll_safe h ‹_› leased created known watermark
  | nextBatch unchanged =>
    simp only [step] at hs
    split at hs <;> cases hs
    exact beginBatch_safe h ‹_› unchanged
  | stop =>
    simp only [step] at hs
    split at hs
    · exact stop_safe h ‹_› hs
    · cases hs
  | read reply createStream consumeJSON =>
    simp only [step] at hs
    split at hs
    · rename_i b hb
      split at hs <;> cases hs
      refine read_safe h hb ?_ createStream consumeJSON
      rintro retriable rfl
      exact hok rfl b hb
    · cases hs
  | complete outcome =>
    simp only [step] at hs
    split at hs <;> cases hs
    exact complete_safe h ‹_› outcome
  | commitMessage reply =>
    have hp := h.phase
    simp only [step] at hs
    split at hs <;> cases hs
    · rename_i hc
      rw [hc] at hp
      exact commitMessage_safe h.toBase hp reply
    · rename_i hc
      rw [hc] at hp
      exact recommitMessage_safe h.toBase hp reply
  | restartConsumer alter created =>
    simp only [step] at hs
    split at hs <;> cases hs
    exact restartConsumer_safe h ‹_› alter created
  | processFailed reply =>
    simp only [step] at hs
    split at hs
    · exact processFailed_safe h ‹_› hs
    · cases hs

theorem initial_safe (h : (consumer cfg).initial c) : Safe c := by
  obtain ⟨hc,hp,hr,_,_,_,hi⟩ := h
  refine ⟨⟨?_,?_⟩,?_⟩
  · rw [hc]
    exact .zero
  · intro p hp
    rw [hr] at hp
    cases hp
  · rw [hi]
    intro _
    rw [hp]
    exact .zero

end Consumer

theorem batch_loses_no_message (cfg : Config) {c : Consumer}
    (h : (consumer cfg).Reachable Consumer.Undisturbed c) {o : ℕ} {m : Message} (ho : o < c.sub.committed)
    (hm : recordAt c.sub.log o = some m) :
    o ∈ c.loaded ∨ ∃ p ∈ c.published, p.offset = o :=
  (h.invariant (fun _ => Consumer.initial_safe)
    (fun _ _ _ hi hok hs => Consumer.step_safe hi hok hs)).committed.held o ho m hm

def freshConsumer : Consumer := ⟨⟨[some (sampleMessage 0),some (sampleMessage 1)],0,0⟩,none,false,[],[],.idle⟩

def loadBatch : List Action := [.stop,.complete .completed,.commitMessage .ok]

def quietRun : List Action :=
  [.consumeAll true true true (some 2),.nextBatch true,.read .message none none,.read .message none none] ++
    loadBatch

def interruptedRun : List Action :=
  [.consumeAll true true true (some 2),.nextBatch true,.read .message none none,
    .read (.failed true) none none,
    .consumeAll true true true (some 2),.nextBatch true,.read .message none none] ++ loadBatch

theorem batch_loses_no_message_quietRun : ∃ c, (consumer sampleConfig).run freshConsumer quietRun = some c ∧
    c.sub.committed = 2 ∧ (0 ∈ c.loaded ∨ ∃ p ∈ c.published, p.offset = 0) := by
  have hrun : ((consumer sampleConfig).run freshConsumer quietRun).any (fun c => c.sub.committed = 2 ∧
      recordAt c.sub.log 0 = some (sampleMessage 0)) = true := by decide +kernel
  simp only [Option.any_eq_true,decide_eq_true_eq] at hrun
  obtain ⟨c,hc,hcommitted,hm⟩ := hrun
  have hok : ∀ a ∈ quietRun, ∀ c : Consumer, c.Undisturbed a := by
    intro a ha c hf
    have hnone : ∀ a ∈ quietRun, Consumer.readFails a = false := by decide
    rw [hnone a ha] at hf
    cases hf
  have hstart : (consumer sampleConfig).initial freshConsumer := ⟨rfl,rfl,rfl,rfl,rfl,rfl,rfl⟩
  have hr := (System.Reachable.initial hstart).runs hok hc
  exact ⟨c,hc,hcommitted,batch_loses_no_message sampleConfig hr (by omega) hm⟩

theorem read_error_loses_message : ∃ c, (consumer sampleConfig).Reachable (fun _ _ => True) c ∧
    0 < c.sub.committed ∧ recordAt c.sub.log 0 = some (sampleMessage 0) ∧ 0 ∉ c.loaded ∧
    ¬∃ p ∈ c.published, p.offset = 0 := by
  have hrun : ((consumer sampleConfig).run freshConsumer interruptedRun).any (fun c =>
      0 < c.sub.committed ∧ recordAt c.sub.log 0 = some (sampleMessage 0) ∧ 0 ∉ c.loaded ∧
        ¬∃ p ∈ c.published, p.offset = 0) = true := by decide +kernel
  simp only [Option.any_eq_true,decide_eq_true_eq] at hrun
  obtain ⟨c,hc,hlost⟩ := hrun
  exact ⟨c,System.Reachable.run (.initial ⟨rfl,rfl,rfl,rfl,rfl,rfl,rfl⟩) hc,hlost⟩

end Jitsu.Bulker
