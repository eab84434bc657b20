import Jitsu.Bulker.Ledger

namespace Jitsu.Bulker

open Jitsu.Log Jitsu.Transition

namespace Topics

def messages (sub : Subscription Message) : List Message := (unread sub.log sub.committed).map Prod.snd

def ledger (s : Topics) : Ledger where
  original := messages s.original
  retry := messages s.retry
  deadLetter := s.deadLetter
  ids := s.ids
  sent := s.sent
  loaded := s.loaded
  entered := s.entered
  moved := s.moved
  attempts := s.attempts

def openStage : Stage → Bool
  | .read => true
  | .sendOffsets => true
  | .commit _ => true
  | _ => false

structure Tracks (cfg : Config) (sub : Subscription Message) (f : Failing) (entries : List (ℕ × Message)) :
    Prop where
  begun : Failing.positioned f.stage = false →
    Reads sub.log sub.committed [] f.commitedPosition ∧ f.message = none
  reads : Failing.positioned f.stage = true → Reads sub.log sub.committed entries sub.position
  handed : openStage f.stage = true → List.Forall₂ (Handed cfg) f.produced (entries.map Prod.snd)
  settled : openStage f.stage = false → entries = []
  message : ∀ o, f.message = some o → sub.position = o + 1
  commit : ∀ offset, f.stage = .commit offset → sub.position = offset

structure RetryTracks (cfg : Config) (sub : Subscription Message) (b : RetryBatch)
    (entries : List (ℕ × Message)) : Prop where
  reads : Reads sub.log sub.committed entries sub.position
  items : b.items.map Prod.fst = entries.map Prod.snd
  faithful : Ledger.Faithful cfg b.items
  first : ∀ p, b.firstPosition = some p → Reads sub.log sub.committed [] p
  empty : b.firstPosition = none → entries = []
  last : ∀ p, b.lastPosition = some p → sub.position = p + 1

structure Aligned (cfg : Config) (s : Topics) : Prop where
  original : s.original.committed ≤ s.original.log.length
  waiting : s.failing = none → Reads s.original.log s.original.committed [] s.original.position
  failing : ∀ f, s.failing = some f → ∃ entries, Tracks cfg s.original f entries
  idle : s.batch = none → Reads s.retry.log s.retry.committed [] s.retry.position
  batch : ∀ b, s.batch = some b → ∃ entries, RetryTracks cfg s.retry b entries

variable {cfg : Config} {s s' : Topics} {sub : Subscription Message}

theorem messages_append (h : sub.committed ≤ sub.log.length) (ms : List Message) :
    messages (sub.append (ms.map some)) = messages sub ++ ms := by
  have hentries : ∀ (n : ℕ) (ms : List Message), (entriesFrom (ms.map some) n).map Prod.snd = ms := by
    intro n ms
    induction ms generalizing n with
    | nil => rfl
    | cons m ms ih => rw [List.map_cons,entriesFrom,List.map_cons,ih]
  rw [messages,messages,Subscription.append,unread_append _ h,List.map_append,hentries]

theorem messages_gap (h : sub.committed ≤ sub.log.length) : messages (sub.append [none]) = messages sub := by
  rw [messages,messages,Subscription.append,unread_append _ h]
  exact congrArg (List.map Prod.snd) (List.append_nil _)

variable {f : Failing} {entries : List (ℕ × Message)}

theorem Tracks.grow (h : Tracks cfg sub f entries)
    (records : Records Message) : Tracks cfg (sub.append records) f entries where
  begun hf := ⟨(h.begun hf).1.grow records,(h.begun hf).2⟩
  reads hf := (h.reads hf).grow records
  handed := h.handed
  settled := h.settled
  message := h.message
  commit := h.commit

theorem RetryTracks.grow {b : RetryBatch} (h : RetryTracks cfg sub b entries)
    (records : Records Message) : RetryTracks cfg (sub.append records) b entries where
  reads := h.reads.grow records
  items := h.items
  faithful := h.faithful
  first p hp := (h.first p hp).grow records
  empty := h.empty
  last := h.last

theorem tracks_continued
    (hr : Reads sub.log sub.committed entries sub.position)
    (hh : List.Forall₂ (Handed cfg) f.produced (entries.map Prod.snd))
    (hm : ∀ o, f.message = some o → sub.position = o + 1) :
    Tracks cfg sub (Failing.continued cfg f) entries := by
  have hs : (Failing.continued cfg f).stage = .sendOffsets ∨ (Failing.continued cfg f).stage = .read := by
    unfold Failing.continued
    dsimp only
    split
    · exact .inl rfl
    · exact .inr rfl
  refine ⟨?_,fun _ => hr,fun _ => hh,?_,hm,fun offset => ?_⟩
  all_goals rcases hs with h | h <;> rw [h] <;> rintro ⟨⟩

structure Advance (cfg : Config) (sub : Subscription Message) (p : Progress) : Prop where
  log : p.sub.log = sub.log
  running : ∀ f, p.status = .running f → ∃ entries, Tracks cfg p.sub f entries
  finished : p.status = .finished → Reads p.sub.log p.sub.committed [] p.sub.position
  bound : p.sub.committed ≤ p.sub.log.length
  published : p.published = [] ∧ p.sub.committed = sub.committed ∨
    ∃ xs, messages sub = xs ++ messages p.sub ∧ List.Forall₂ (Handed cfg) p.published xs

theorem advance_running (hc : sub.committed ≤ sub.log.length) {sub' : Subscription Message}
    (h : Tracks cfg sub' f entries) (hlog : sub'.log = sub.log)
    (hcommitted : sub'.committed = sub.committed) : Advance cfg sub (f.running sub') where
  log := hlog
  running f' hf := by
    cases hf
    exact ⟨entries,h⟩
  finished hf := by cases hf
  bound := by
    change sub'.committed ≤ sub'.log.length
    rw [hlog,hcommitted]
    exact hc
  published := .inl ⟨rfl,hcommitted⟩

theorem advance_abort (hc : sub.committed ≤ sub.log.length) {sub' : Subscription Message}
    (hlog : sub'.log = sub.log) (hcommitted : sub'.committed = sub.committed) (f : Failing) :
    Advance cfg sub (f.abort sub' []) where
  log := hlog
  running f' hf := by cases hf
  finished hf := by cases hf
  bound := by
    change sub'.committed ≤ sub'.log.length
    rw [hlog,hcommitted]
    exact hc
  published := .inl ⟨rfl,hcommitted⟩

theorem advance_read (h : Tracks cfg sub f entries)
    (hf : f.stage = .read) (reply : ReadReply) (produced : Bool) (now : ℕ) :
    Advance cfg sub (f.read cfg sub reply produced now) := by
  have hr := h.reads (by rw [hf]; rfl)
  have hh := h.handed (by rw [hf]; rfl)
  unfold Failing.read
  split
  · exact advance_abort hr.start rfl rfl f
  · split
    · refine advance_running hr.start (tracks_continued hr hh ?_) rfl rfl
      intro o ho
      cases ho
    · exact advance_abort hr.start rfl rfl f
  · rename_i o m sub' hread
    obtain ⟨hn,rfl⟩ := readMessage_message hread
    split
    · have ht : Tracks cfg (sub.seek (o + 1)) (Failing.continued cfg (f.produce cfg now o m))
          (entries ++ [(o,m)]) := by
        refine tracks_continued (hr.next hn) ?_ ?_
        · rw [List.map_append]
          exact List.rel_append hh (.cons (handed_failedMessage cfg f.originalErr now o m) .nil)
        · rintro _ ⟨⟩
          rfl
      exact advance_running hr.start ht rfl rfl
    · exact advance_abort hr.start rfl rfl f

theorem advance_sendOffsets (h : Tracks cfg sub f entries)
    (hf : f.stage = .sendOffsets) (ok : Bool) : Advance cfg sub (f.sendOffsets sub ok) := by
  have hr := h.reads (by rw [hf]; rfl)
  unfold Failing.sendOffsets
  split
  · exact advance_abort hr.start rfl rfl f
  · rename_i o ho
    split
    · have ht : Tracks cfg sub { f with stage := .commit (o + 1) } entries := by
        refine ⟨nofun,fun _ => hr,fun _ => h.handed (by rw [hf]; rfl),
          nofun,h.message,?_⟩
        rintro _ ⟨⟩
        exact h.message o ho
      exact advance_running hr.start ht rfl rfl
    · exact advance_abort hr.start rfl rfl f

variable {offset : ℕ}

theorem messages_commit
    (h : Reads sub.log sub.committed entries offset) :
    messages sub = entries.map Prod.snd ++ messages (sub.commit offset) := by
  rw [messages,h.split,List.map_append]
  rfl

theorem advance_commit (h : Tracks cfg sub f entries)
    (hf : f.stage = .commit offset) (reply : Commit) :
    Advance cfg sub (f.commitTransaction sub offset reply) := by
  have hr := h.reads (by rw [hf]; rfl)
  have hp := h.commit offset hf
  rw [hp] at hr
  have hh := h.handed (by rw [hf]; rfl)
  have hpublished : ∃ xs, messages sub = xs ++ messages (sub.commit offset) ∧
      List.Forall₂ (Handed cfg) f.produced xs := ⟨entries.map Prod.snd,messages_commit hr,hh⟩
  cases reply with
  | failed applied =>
    cases applied with
    | false => exact advance_abort hr.start rfl rfl f
    | true => exact ⟨rfl,fun f' hf' => (by cases hf'),fun hf' => (by cases hf'),hr.stop,.inr hpublished⟩
  | ok =>
    have hdone : Reads sub.log offset [] sub.position := by
      rw [hp]
      exact .refl hr.stop
    unfold Failing.commitTransaction
    dsimp only
    split
    · exact ⟨rfl,fun f' hf' => (by cases hf'),fun _ => hdone,hr.stop,.inr hpublished⟩
    · refine ⟨rfl,?_,fun hf' => (by cases hf'),hr.stop,.inr hpublished⟩
      rintro _ ⟨⟩
      exact ⟨[],nofun,fun _ => hdone,nofun,fun _ => rfl,h.message,nofun⟩

theorem advance_step {p : Progress} {reply : FailedReply}
    (hc : sub.committed ≤ sub.log.length) (h : Tracks cfg sub f entries)
    (hstep : f.step cfg sub reply = some p) : Advance cfg sub p := by
  cases reply with
  | read reply produced now =>
    simp only [Failing.step] at hstep
    split at hstep <;> cases hstep
    exact advance_read h ‹_› reply produced now
  | commit reply =>
    simp only [Failing.step] at hstep
    split at hstep <;> cases hstep
    exact advance_commit h ‹_› reply
  | call ok =>
    simp only [Failing.step] at hstep
    split at hstep <;> cases hstep
    case h_5 hs => exact advance_sendOffsets h hs ok
    all_goals
      rename_i hs
      cases ok
      · exact advance_abort hc rfl rfl f
    · have ht : Tracks cfg sub { f with stage := .initProducer } [] :=
        ⟨fun _ => h.begun (by rw [hs]; rfl),nofun,nofun,fun _ => rfl,
          h.message,nofun⟩
      exact advance_running hc ht rfl rfl
    · obtain ⟨hr,hm⟩ := h.begun (by rw [hs]; rfl)
      have ht : Tracks cfg (sub.seek f.commitedPosition) { f with stage := .groupMetadata } [] := by
        refine ⟨nofun,fun _ => hr,nofun,fun _ => rfl,?_,
          nofun⟩
        intro o ho
        rw [hm] at ho
        cases ho
      exact advance_running hc ht rfl rfl
    · have hempty := h.settled (by rw [hs]; rfl)
      have ht : Tracks cfg sub { f with stage := .beginTransaction } entries :=
        ⟨nofun,fun _ => h.reads (by rw [hs]; rfl),nofun,fun _ => hempty,
          h.message,nofun⟩
      exact advance_running hc ht rfl rfl
    · obtain rfl := h.settled (by rw [hs]; rfl)
      exact advance_running hc (tracks_continued (h.reads (by rw [hs]; rfl)) .nil h.message) rfl rfl

def Refines (cfg : Config) (s s' : Topics) : Prop :=
  Aligned cfg s' ∧ (s'.ledger = s.ledger ∨ Ledger.Step cfg s.ledger s'.ledger)

theorem Aligned.retryBound (h : Aligned cfg s) : s.retry.committed ≤ s.retry.log.length := by
  cases hb : s.batch with
  | none => exact (h.idle hb).start
  | some b =>
    obtain ⟨_,ht⟩ := h.batch b hb
    exact ht.reads.start

theorem Aligned.growOriginal (h : Aligned cfg s) (records : Records Message) :
    Aligned cfg { s with original := s.original.append records } where
  original := (Reads.refl h.original).grow records |>.start
  waiting hf := (h.waiting hf).grow records
  failing f hf := (h.failing f hf).imp fun _ ht => ht.grow records
  idle := h.idle
  batch := h.batch

theorem Aligned.growRetry (h : Aligned cfg s) (records : Records Message) :
    Aligned cfg { s with retry := s.retry.append records } where
  original := h.original
  waiting := h.waiting
  failing := h.failing
  idle hb := (h.idle hb).grow records
  batch b hb := (h.batch b hb).imp fun _ ht => ht.grow records

variable {m : Message}

theorem send_refines (h : Aligned cfg s) (hs : s.send m = some s') : Refines cfg s s' := by
  unfold send at hs
  split at hs <;> cases hs
  rename_i hm
  have hg := h.growOriginal [some m]
  refine ⟨⟨hg.original,hg.waiting,hg.failing,hg.idle,hg.batch⟩,.inr ?_⟩
  have hl := messages_append h.original [m]
  simp only [List.map_singleton] at hl
  simp only [ledger,hl]
  exact Ledger.Step.send (l := s.ledger) m hm.1 hm.2

theorem foreign_refines (h : Aligned cfg s) (hs : s.foreign cfg m = some s') :
    Refines cfg s s' := by
  unfold foreign at hs
  split at hs <;> cases hs
  rename_i hm
  have hg := h.growRetry [some m]
  refine ⟨⟨hg.original,hg.waiting,hg.failing,hg.idle,hg.batch⟩,.inr ?_⟩
  have hl := messages_append h.retryBound [m]
  simp only [List.map_singleton] at hl
  simp only [ledger,hl]
  exact Ledger.Step.foreign (l := s.ledger) m hm.1 hm.2

theorem idsOf_eq (entries : List (ℕ × Message)) : idsOf entries = (entries.map Prod.snd).map Message.id := by
  rw [List.map_map]
  rfl

theorem readable.unfailing (hs : s.readable offset) (cfg : Config) (sub : Subscription Message) :
    ∀ f, s.failing = some f → ∃ entries, Tracks cfg sub f entries := by
  intro f hf
  rw [hs.1] at hf
  cases hf

section

variable (h : Aligned cfg s)

include h

theorem Aligned.readBefore (hs : s.readable offset) :
    Reads s.original.log s.original.committed (s.readBefore offset) offset := by
  obtain ⟨hf,hle,hlen⟩ := hs
  have hr := Reads.before hle hlen
  exact ⟨h.original,hlen,(h.waiting hf).split.trans hr.split⟩

theorem readError_refines (hquiet : s.readBefore offset = [])
    (hs : s.readError offset = some s') : Refines cfg s s' := by
  unfold readError at hs
  split at hs <;> cases hs
  rename_i hread
  have hr := h.readBefore hread
  rw [hquiet] at hr
  exact ⟨⟨h.original,fun _ => hr,hread.unfailing cfg _,h.idle,h.batch⟩,.inl rfl⟩

theorem load_refines {committed : Bool}
    (hs : s.load offset committed = some s') : Refines cfg s s' := by
  unfold load at hs
  split at hs <;> cases hs
  rename_i hread
  have hr := h.readBefore hread
  have hnone := hread.unfailing cfg
  have hstep : Ledger.Step cfg s.ledger _ :=
    Ledger.Step.load (l := s.ledger) _ _ committed (messages_commit hr)
  cases committed with
  | false => exact ⟨⟨h.original,fun _ => .refl h.original,hnone _,h.idle,h.batch⟩,.inr (idsOf_eq _ ▸ hstep)⟩
  | true => exact ⟨⟨hr.stop,fun _ => .refl hr.stop,hnone _,h.idle,h.batch⟩,.inr (idsOf_eq _ ▸ hstep)⟩

theorem fail_refines {failedPosition : ℕ} {originalErr : String}
    (hs : s.fail failedPosition originalErr = some s') : Refines cfg s s' := by
  unfold fail at hs
  split at hs
  · rename_i first m _ hn hrec
    split at hs <;> cases hs
    rename_i hread
    have hr := h.readBefore hread.1
    refine ⟨⟨h.original,?_,?_,h.idle,h.batch⟩,.inr ?_⟩
    · rintro ⟨⟩
    · rintro _ ⟨⟩
      refine ⟨[],fun _ => ⟨(h.waiting hread.1.1).upTo hn,rfl⟩,by rintro ⟨⟩,by rintro ⟨⟩,
        fun _ => rfl,by rintro _ ⟨⟩,by rintro _ ⟨⟩⟩
    · simp only [ledger,idsOf_eq]
      exact Ledger.Step.enter (l := s.ledger) _ _ (messages_commit hr)
  · cases hs

theorem Aligned.publish (published : List Produced) :
    Aligned cfg (s.publish published) := by
  have hg := h.growRetry ((targeted .retry published).map some)
  exact ⟨hg.original,hg.waiting,hg.failing,hg.idle,hg.batch⟩

theorem publish_ledger (published : List Produced) : (s.publish published).ledger =
    { s.ledger with
      retry := messages s.retry ++ targeted .retry published
      deadLetter := s.deadLetter ++ targeted .deadLetter published
      attempts := s.attempts ++ published.map attemptOf } := by
  simp only [ledger,publish,messages_append h.retryBound]

theorem advance_refines {p : Progress} (ha : Advance cfg s.original p)
    {sub : Subscription Message} (hlog : sub.log = p.sub.log) (hcommitted : sub.committed = p.sub.committed)
    {failing : Option Failing} (hw : failing = none → Reads sub.log sub.committed [] sub.position)
    (hf : ∀ f, failing = some f → ∃ entries, Tracks cfg sub f entries) :
    Refines cfg s { s.publish p.published with original := sub, failing := failing } := by
  have hp := h.publish p.published
  have hm : messages sub = messages p.sub := by rw [messages,messages,hlog,hcommitted]
  refine ⟨⟨?_,hw,hf,hp.idle,hp.batch⟩,?_⟩
  · rw [hlog,hcommitted]
    exact ha.bound
  have hledger : ledger { s.publish p.published with original := sub, failing := failing } =
      { (s.publish p.published).ledger with original := messages p.sub } := by
    simp only [ledger,hm]
  rw [hledger,publish_ledger h]
  rcases ha.published with ⟨hnil,hsame⟩ | ⟨xs,hsplit,hh⟩
  · left
    have hsub : messages p.sub = messages s.original := by rw [messages,messages,ha.log,hsame]
    rw [hnil,hsub]
    simp only [targeted,ledger,List.filter_nil,List.map_nil,List.append_nil]
  · exact .inr (Ledger.Step.handOff (l := s.ledger) p.published xs _ hsplit hh)

theorem processFailed_refines {reply : FailedReply}
    (hs : s.processFailed cfg reply = some s') : Refines cfg s s' := by
  unfold processFailed at hs
  split at hs
  · cases hs
  · rename_i f hf
    obtain ⟨entries,ht⟩ := h.failing f hf
    obtain ⟨p,hstep,rfl⟩ := Option.map_eq_some_iff.mp hs
    have ha := advance_step h.original ht hstep
    dsimp only
    split
    · rename_i f' hf'
      refine advance_refines h ha rfl rfl (by rintro ⟨⟩) ?_
      rintro _ ⟨⟩
      exact ha.running f' hf'
    · rename_i hf'
      refine advance_refines h ha rfl rfl (fun _ => ha.finished hf') ?_
      rintro _ ⟨⟩
    · have hlog : p.sub.renew.log = p.sub.log := rfl
      refine advance_refines h ha hlog rfl (fun _ => .refl ha.bound) ?_
      rintro _ ⟨⟩

theorem retry_refines {sub : Subscription Message} {batch : Option RetryBatch}
    (hlog : sub.log = s.retry.log) (hcommitted : sub.committed = s.retry.committed)
    (hidle : batch = none → Reads sub.log sub.committed [] sub.position)
    (hbatch : ∀ b, batch = some b → ∃ entries, RetryTracks cfg sub b entries) :
    Refines cfg s { s with retry := sub, batch := batch } := by
  refine ⟨⟨h.original,h.waiting,h.failing,hidle,hbatch⟩,.inl ?_⟩
  have hm : messages sub = messages s.retry := by rw [messages,messages,hlog,hcommitted]
  simp only [ledger,hm]

theorem retryProbe_refines (hs : s.retryProbe = some s') : Refines cfg s s' := by
  unfold retryProbe at hs
  split at hs
  · rename_i offset _ hb hn
    cases hs
    have hbatch : ∀ b, s.batch = some b → ∃ entries, RetryTracks cfg (s.retry.seek offset) b entries := by
      intro b hb'
      rw [hb] at hb'
      cases hb'
    exact retry_refines h rfl rfl (fun _ => (h.idle hb).upTo hn) hbatch
  · cases hs

end

variable {b : RetryBatch} {entries : List (ℕ × Message)}

theorem retryError_refines (h : Aligned cfg s) (hlog : sub.log = s.retry.log)
    (hcommitted : sub.committed = s.retry.committed) (ht : RetryTracks cfg sub b entries) :
    Refines cfg s (retryError { s with retry := sub } b) := by
  refine retry_refines h ?_ ?_ ?_ ?_
  · split <;> exact hlog
  · split <;> exact hcommitted
  · intro _
    split
    · rename_i hf
      have hr := ht.reads
      rw [ht.empty hf] at hr
      exact hr
    · rename_i first hf
      exact ht.first first hf
  · rintro _ ⟨⟩

theorem retryStop_refines (h : Aligned cfg s) (ht : RetryTracks cfg s.retry b entries) :
    Refines cfg s (s.retryStop b) := by
  refine retry_refines h rfl rfl ?_ ?_
  · intro hn
    split at hn
    · rename_i hf
      have hr := ht.reads
      rw [ht.empty hf] at hr
      exact hr
    · cases hn
  · intro b' hb'
    split at hb' <;> cases hb'
    exact ⟨entries,ht.reads,ht.items,ht.faithful,ht.first,ht.empty,ht.last⟩

theorem consumed_tracks (ht : RetryTracks cfg sub b entries)
    (hn : next sub.log sub.position = some (offset,m)) (now : ℕ) :
    RetryTracks cfg (sub.seek (offset + 1)) (b.consumed offset m (retryMessage cfg now m))
      (entries ++ [(offset,m)]) where
  reads := ht.reads.next hn
  items := by
    change (b.items ++ [(m,retryMessage cfg now m)]).map Prod.fst = _
    rw [List.map_append,List.map_append,ht.items]
    rfl
  faithful := by
    intro i hi
    rcases List.mem_append.mp hi with hi | hi
    · exact ht.faithful i hi
    · obtain rfl := List.mem_singleton.mp hi
      exact ⟨now,rfl⟩
  first := by
    rintro _ ⟨⟩
    cases hf : b.firstPosition with
    | none =>
      have hr := ht.reads
      rw [ht.empty hf] at hr
      exact hr.upTo hn
    | some first => exact ht.first first hf
  empty := by
    intro hf
    cases hf
  last := by
    rintro _ ⟨⟩
    rfl

theorem retryRead_refines (h : Aligned cfg s) (ht : RetryTracks cfg s.retry b entries) (reply : ReadReply)
    (began produced : Bool) (now : ℕ) : Refines cfg s (s.retryRead cfg b reply began produced now) := by
  unfold retryRead
  split
  · exact retryStop_refines h ht
  · exact retryError_refines h rfl rfl ht
  · rename_i offset m sub hread
    obtain ⟨hn,rfl⟩ := readMessage_message hread
    have ht' := consumed_tracks ht hn now
    dsimp only
    split
    · exact retryError_refines h rfl rfl ht'
    · split
      · exact retryError_refines h rfl rfl ht'
      · refine retry_refines h rfl rfl nofun ?_
        rintro _ ⟨⟩
        exact ⟨_,ht'⟩

theorem retryCommit_refines (h : Aligned cfg s) (ht : RetryTracks cfg s.retry b entries) {last : ℕ}
    (hl : b.lastPosition = some last) : Refines cfg s (s.retryCommit cfg b (last + 1)) := by
  have hr := ht.reads
  rw [ht.last last hl] at hr
  have hg := h.growOriginal ((addressed cfg.topicId b.produced).map some)
  refine ⟨⟨hg.original,hg.waiting,hg.failing,?_,?_⟩,.inr ?_⟩
  · intro _
    change Reads (s.retry.log ++ _) (last + 1) [] s.retry.position
    rw [ht.last last hl]
    exact (Reads.refl hr.stop).grow _
  · rintro _ ⟨⟩
  · have hsplit : s.ledger.retry = b.items.map Prod.fst ++ messages (s.retry.commit (last + 1)) := by
      rw [ht.items]
      exact messages_commit hr
    have ho := messages_append h.original (addressed cfg.topicId b.produced)
    have hstop : (s.retry.commit (last + 1)).committed ≤ (s.retry.commit (last + 1)).log.length := hr.stop
    have hm := messages_append hstop (addressed cfg.retryTopic b.produced)
    simp only [ledger,retryCommit,ho,hm]
    exact Ledger.Step.giveBack (l := s.ledger) b.items _ hsplit ht.faithful

def Settled (s : Topics) : Move → Prop
  | .readError offset => s.readBefore offset = []
  | .retryCommit reply => reply ≠ .failed true
  | _ => True

instance : (s : Topics) → (move : Move) → Decidable (s.Settled move)
  | s, .readError offset => inferInstanceAs (Decidable (s.readBefore offset = []))
  | _, .retryCommit reply => inferInstanceAs (Decidable (reply ≠ .failed true))
  | _, .send _ | _, .foreign _ | _, .gapOriginal | _, .gapRetry | _, .load _ _ | _, .fail _ _
  | _, .processFailed _ | _, .restartOriginal | _, .retryProbe | _, .retryBatch _ | _, .retryRead _ _ _ _
  | _, .retryStop | _, .retryCall _ | _, .restartRetry => instDecidableTrue

theorem retryStep_refines (h : Aligned cfg s) (hb : s.batch = some b) {move : Move} (hok : s.Settled move)
    (hs : s.retryStep cfg b move = some s') : Refines cfg s s' := by
  obtain ⟨entries,ht⟩ := h.batch b hb
  have hstage : ∀ stage, RetryTracks cfg s.retry { b with stage := stage } entries :=
    fun stage => ⟨ht.reads,ht.items,ht.faithful,ht.first,ht.empty,ht.last⟩
  have herror : Refines cfg s (s.retryError b) := retryError_refines h rfl rfl ht
  have hnext : ∀ stage, Refines cfg s { s with batch := some { b with stage := stage } } := by
    intro stage
    refine retry_refines h rfl rfl nofun ?_
    rintro _ ⟨⟩
    exact ⟨entries,hstage stage⟩
  cases move with
  | retryRead reply began produced now =>
    simp only [retryStep] at hs
    split at hs <;> cases hs
    exact retryRead_refines h ht reply began produced now
  | retryStop =>
    simp only [retryStep] at hs
    split at hs <;> cases hs
    exact retryStop_refines h ht
  | retryCall ok =>
    simp only [retryStep] at hs
    split at hs <;> cases hs <;> cases ok
    · exact herror
    · exact hnext .sendOffsets
    · exact herror
    · exact hnext .commit
  | retryCommit reply =>
    simp only [retryStep] at hs
    split at hs <;> cases hs
    rename_i last _ hl
    cases reply with
    | ok => exact retryCommit_refines h ht hl
    | failed applied =>
      cases applied with
      | false => exact herror
      | true => exact absurd rfl hok
  | _ => cases hs

theorem step_refines (h : Aligned cfg s) {move : Move} (hok : s.Settled move)
    (hs : s.step cfg move = some s') : Refines cfg s s' := by
  have hretry : (s.batch.bind fun b => s.retryStep cfg b move) = some s' → Refines cfg s s' := by
    intro hb
    obtain ⟨b,hb,hs⟩ := Option.bind_eq_some_iff.mp hb
    exact retryStep_refines h hb hok hs
  cases move with
  | send m => exact send_refines h hs
  | foreign m => exact foreign_refines h hs
  | gapOriginal =>
    cases hs
    have hm := messages_gap h.original
    exact ⟨h.growOriginal [none],.inl (by simp only [ledger,hm])⟩
  | gapRetry =>
    cases hs
    have hm := messages_gap h.retryBound
    exact ⟨h.growRetry [none],.inl (by simp only [ledger,hm])⟩
  | readError offset => exact readError_refines h hok hs
  | load offset committed => exact load_refines h hs
  | fail failedPosition originalErr => exact fail_refines h hs
  | processFailed reply => exact processFailed_refines h hs
  | restartOriginal =>
    cases hs
    exact ⟨⟨h.original,fun _ => .refl h.original,nofun,h.idle,h.batch⟩,.inl rfl⟩
  | retryProbe => exact retryProbe_refines h hs
  | retryBatch highOffset =>
    simp only [step] at hs
    split at hs <;> cases hs
    rename_i hb
    refine retry_refines h rfl rfl nofun ?_
    rintro _ ⟨⟩
    exact ⟨[],h.idle hb,rfl,nofun,nofun,fun _ => rfl,
      nofun⟩
  | restartRetry =>
    cases hs
    have hlog : s.retry.renew.log = s.retry.log := rfl
    refine retry_refines h hlog rfl (fun _ => .refl h.retryBound) ?_
    rintro _ ⟨⟩
  | retryRead reply began produced now => exact hretry hs
  | retryStop => exact hretry hs
  | retryCall ok => exact hretry hs
  | retryCommit reply => exact hretry hs

theorem empty_aligned : Aligned cfg empty :=
  ⟨le_refl 0,fun _ => .refl (le_refl 0),nofun,fun _ => .refl (le_refl 0),nofun⟩

theorem empty_balanced : Ledger.Balanced cfg empty.ledger where
  single _ := Nat.zero_le 1
  known _ _ := rfl
  sent _ h := by cases h
  kept _ h := by cases h
  entered _ h := by cases h
  moved _ h := by cases h
  bounded _ := Nat.zero_le _
  original _ h := by cases h
  retry _ h := by cases h
  dead _ h := by cases h
  attempts _ h := by cases h
  letters := rfl

theorem reachable_balanced (h : (handOff cfg).Reachable Settled s) :
    Aligned cfg s ∧ Ledger.Balanced cfg s.ledger := by
  refine h.invariant (I := fun s => Aligned cfg s ∧ Ledger.Balanced cfg s.ledger) ?_ ?_
  · rintro _ rfl
    exact ⟨empty_aligned,empty_balanced⟩
  · rintro s move s' ⟨ha,hb⟩ hok hs
    obtain ⟨ha',hledger | hledger⟩ := step_refines ha hok hs
    · exact ⟨ha',hledger ▸ hb⟩
    · exact ⟨ha',Ledger.step_balanced hb hledger⟩

def liveCopies (s : Topics) : List Message := messages s.original ++ messages s.retry ++ s.deadLetter

end Topics

def HandedOffOnce (cfg : Config) (s : Topics) : Prop :=
  (∀ id ∈ s.entered, id ∉ s.loaded → (s.liveCopies.map Message.id).count id = 1) ∧
  (∀ m ∈ s.liveCopies, m.id ∈ s.entered → getKafkaIntHeader m.retries = ((s.moved.count m.id : ℤ),true)) ∧
  (∀ id, s.moved.count id ≤ cfg.messagesRetryCount) ∧
  (∀ a ∈ s.attempts, a.target = .deadLetter ↔ a.retries = cfg.messagesRetryCount) ∧
  (∀ id, id ∈ s.deadLetter.map Message.id ↔
    ∃ a ∈ s.attempts, a.id = id ∧ a.retries = cfg.messagesRetryCount)

theorem failed_hand_off_once (cfg : Config) {s : Topics} (h : (handOff cfg).Reachable Topics.Settled s) :
    HandedOffOnce cfg s := by
  obtain ⟨_,hb⟩ := Topics.reachable_balanced h
  refine ⟨fun id hid hl => hb.kept id (hb.entered id hid) hl,?_,hb.bounded,hb.attempts,?_⟩
  · intro m hm hid
    have hlive : m ∈ s.ledger.live := hm
    rcases Ledger.mem_live.mp hlive with hm | hm | hm
    · exact (hb.original m hm).2
    · rcases hb.retry m hm with ⟨_,hw⟩ | ⟨hn,_⟩
      · rw [hw.retries]
        rfl
      · exact absurd (hb.entered m.id hid) hn
    · rw [(hb.dead m hm).1]
      rfl
  · intro id
    change id ∈ s.ledger.deadLetter.map Message.id ↔ _
    rw [hb.letters]
    constructor
    · rintro hid
      obtain ⟨a,ha,rfl⟩ := List.mem_map.mp hid
      obtain ⟨ha,ht⟩ := List.mem_filter.mp ha
      exact ⟨a,ha,rfl,(hb.attempts a ha).mp (of_decide_eq_true ht)⟩
    · rintro ⟨a,ha,rfl,hr⟩
      exact List.mem_map.mpr ⟨a,List.mem_filter.mpr ⟨ha,decide_eq_true ((hb.attempts a ha).mpr hr)⟩,rfl⟩

def oneRetry : Config := { sampleConfig with messagesRetryCount := 1 }

def failOnce (offset : ℕ) : List Move :=
  [.fail offset "",.processFailed (.call true),.processFailed (.call true),.processFailed (.call true),
    .processFailed (.call true),.processFailed (.read .message true 0),.processFailed (.call true),
    .processFailed (.commit .ok)]

def retryOnce (reply : Commit) : List Move :=
  [.retryBatch 1,.retryRead .message true true 1,.retryStop,.retryCall true,.retryCall true,.retryCommit reply]

def twoAttempts : List Move :=
  .send (sampleMessage 0) :: failOnce 0 ++ retryOnce (.failed false) ++ retryOnce .ok ++ [.readError 1] ++
    failOnce 1

theorem failed_hand_off_once_twoAttempts : ∃ s, (handOff oneRetry).Reachable Topics.Settled s ∧
    0 ∈ s.deadLetter.map Message.id ∧ (s.liveCopies.map Message.id).count 0 = 1 := by
  have hrun : (((handOff oneRetry).guard Topics.Settled).run .empty twoAttempts).any
      (fun s => 0 ∈ s.entered ∧ 0 ∉ s.loaded ∧ 0 ∈ s.deadLetter.map Message.id) = true := by decide +kernel
  simp only [Option.any_eq_true,decide_eq_true_eq] at hrun
  obtain ⟨s,hs,hentered,hloaded,hdead⟩ := hrun
  have hr := (System.Reachable.initial (T := handOff oneRetry) rfl).guarded hs
  exact ⟨s,hr,hdead,(failed_hand_off_once oneRetry hr).1 0 hentered hloaded⟩

def Miscounted (copies : ℕ) (moves : List Move) : Prop :=
  ∃ s, (handOff oneRetry).run .empty moves = some s ∧ 0 ∈ s.entered ∧ 0 ∉ s.loaded ∧
    (s.liveCopies.map Message.id).count 0 = copies

def skippedRetry : List Move :=
  .send (sampleMessage 0) :: failOnce 0 ++ retryOnce .ok ++
    [.send (sampleMessage 1),.readError 2,.load 3 true]

def repeatedRetry : List Move :=
  .send (sampleMessage 0) :: failOnce 0 ++ retryOnce (.failed true) ++ retryOnce .ok

theorem hand_off_loses_and_doubles : Miscounted 0 skippedRetry ∧ Miscounted 2 repeatedRetry := by
  have hlost : ((handOff oneRetry).run .empty skippedRetry).any (fun s => 0 ∈ s.entered ∧ 0 ∉ s.loaded ∧
      (s.liveCopies.map Message.id).count 0 = 0) = true := by decide +kernel
  have hdoubled : ((handOff oneRetry).run .empty repeatedRetry).any (fun s => 0 ∈ s.entered ∧ 0 ∉ s.loaded ∧
      (s.liveCopies.map Message.id).count 0 = 2) = true := by decide +kernel
  simp only [Option.any_eq_true,decide_eq_true_eq] at hlost hdoubled
  exact ⟨hlost,hdoubled⟩

end Jitsu.Bulker
