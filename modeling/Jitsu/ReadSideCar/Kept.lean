import Jitsu.ReadSideCar.Reader

namespace Jitsu.ReadSideCar

open Lib

def chunkRows (chunk : Option Chunk) : List ℕ := chunk.elim [] Chunk.rows

structure Kept (received done : List ℕ) (clock : ℕ) (st : ActiveStream) : Prop where
  owned : st.error = "" → st.status ≠ .cancelled → ∀ id ∈ received, id ∈ done ∨ id ∈ st.rows
  shut : st.closed → st.bulkerStream = none
  ended : st.status = .running ∨ st.closed
  events : st.eventsCount = done.length
  buffered : ∀ c, st.bulkerStream = some c → st.error = "" → st.bufferedEventsCount = c.rows.length
  idle : st.bulkerStream = none → st.closed = false → st.error = "" → st.bufferedEventsCount = 0
  replace : ∀ c, st.bulkerStream = some c → c.mode = .replaceTable → done = []
  dated : ∀ u, st.unsavedState = some u → u.clock ≤ clock

theorem registerError_error (st : ActiveStream) {err : String} (herr : err ≠ "") :
    (st.registerError err).error ≠ "" := by
  unfold ActiveStream.registerError
  split
  · exact herr
  · next h => exact fun he => h (.inl he)

variable {st : ActiveStream}

theorem isActive_iff : st.isActive ↔ st.error = "" ∧ ∃ c, st.bulkerStream = some c := by
  simp only [ActiveStream.isActive,Bool.and_eq_true,decide_eq_true_eq,Option.isSome_iff_exists]
  exact and_comm

variable {answer : Option String}

theorem commit_cases (st : ActiveStream) (strict : Bool)
    (hanswer : answer ≠ some "") :
    (st.bulkerStream = none ∧ st.commit strict answer = (st.drained,none)) ∨
    (∃ err, err ≠ "" ∧ st.commit strict answer = ({ st.drained with error := err },none)) ∨
    ∃ c, st.bulkerStream = some c ∧ st.error = "" ∧ st.commit strict answer =
      ({ st.drained with
          eventsCount := st.eventsCount + st.bufferedEventsCount
          bytesProcessed := st.bytesProcessed + st.bufferedBytes },some c) := by
  unfold ActiveStream.commit
  split
  · next hnone => exact .inl ⟨hnone,rfl⟩
  next c hc =>
  split
  · next he => exact .inr (.inl ⟨st.error,he,rfl⟩)
  next he =>
  split
  · next hlogs => exact .inr (.inl ⟨st.errorFromLogs,hlogs.2,rfl⟩)
  · cases answer with
    | some err => exact .inr (.inl ⟨err,fun h => hanswer (h ▸ rfl),rfl⟩)
    | none => exact .inr (.inr ⟨c,hc,not_not.mp he,rfl⟩)

theorem commit_chunk {strict : Bool} {c : Chunk}
    (h : (st.commit strict answer).2 = some c) : st.bulkerStream = some c := by
  unfold ActiveStream.commit at h
  split at h
  · cases h
  next c' hc =>
  split at h
  · cases h
  split at h
  · cases h
  cases answer with
  | some err => cases h
  | none =>
    cases h
    exact hc

theorem close_chunk {complete cancelled strict : Bool} {c : Chunk}
    (h : (st.close complete cancelled strict answer).2 = some c) : st.bulkerStream = some c := by
  cases complete with
  | true => exact commit_chunk h
  | false => cases h

theorem commit_bulkerStream (st : ActiveStream) (strict : Bool)
    (hanswer : answer ≠ some "") : (st.commit strict answer).1.bulkerStream = none := by
  obtain ⟨_,h⟩ | ⟨_,_,h⟩ | ⟨_,_,_,h⟩ := commit_cases st strict hanswer <;> rw [h] <;> rfl

theorem commit_status (st : ActiveStream) (strict : Bool)
    (hanswer : answer ≠ some "") :
    (st.commit strict answer).1.status = st.status := by
  obtain ⟨_,h⟩ | ⟨_,_,h⟩ | ⟨_,_,_,h⟩ := commit_cases st strict hanswer <;> rw [h] <;> rfl

theorem interrupt_frame (st : ActiveStream) (cancelled : Bool) :
    (st.interrupt cancelled).bulkerStream = none ∧ (st.interrupt cancelled).eventsCount = st.eventsCount ∧
    (st.interrupt cancelled).unsavedState = st.unsavedState := by
  unfold ActiveStream.interrupt
  split <;> exact ⟨rfl,rfl,rfl⟩

structure Concluded (st st' : ActiveStream) : Prop where
  closed : st'.closed = true
  bulkerStream : st'.bulkerStream = st.bulkerStream
  eventsCount : st'.eventsCount = st.eventsCount
  unsavedState : st'.unsavedState = st.unsavedState
  clean : st'.error = "" → st.error = ""
  sound : st'.error = "" → st'.status ≠ .cancelled → st.status ≠ .cancelled
  honest : st'.status = .success → st'.error = ""

theorem concluded (st : ActiveStream) (cancelled : Bool) : Concluded st (st.conclude cancelled) := by
  have hcancelled : cancelledError ≠ "" := by decide
  unfold ActiveStream.conclude
  split
  · next he =>
    refine ⟨rfl,rfl,rfl,rfl,id,fun h1 => absurd h1 he,fun hs => ?_⟩
    dsimp only at hs
    split at hs <;> cases hs
  next he =>
  split
  · split
    · exact ⟨rfl,rfl,rfl,rfl,fun h1 => absurd h1 hcancelled,fun h1 => absurd h1 hcancelled,nofun⟩
    · exact ⟨rfl,rfl,rfl,rfl,id,fun _ h2 => absurd rfl h2,nofun⟩
  · split
    · next hrunning =>
      exact ⟨rfl,rfl,rfl,rfl,id,fun _ _ => by simp [hrunning],fun _ => not_not.mp he⟩
    · exact ⟨rfl,rfl,rfl,rfl,id,fun _ => id,fun _ => not_not.mp he⟩

theorem interrupt_conclude (st : ActiveStream) (cancelled : Bool) :
    ((st.interrupt cancelled).conclude cancelled).error ≠ "" ∨
    ((st.interrupt cancelled).conclude cancelled).status = .cancelled := by
  have hnvl : nvlString st.errorFromLogs interruptError ≠ "" := by
    unfold nvlString
    split
    · decide
    · assumption
  have hcancelled : cancelledError ≠ "" := by decide
  by_cases he : st.error = ""
  · cases cancelled with
    | false => exact .inl (by simp [ActiveStream.interrupt,ActiveStream.conclude,he,hnvl])
    | true =>
      by_cases hevents : 0 < st.eventsCount
      · exact .inl (by
          simp [ActiveStream.interrupt,ActiveStream.abort,ActiveStream.conclude,he,hevents,hcancelled])
      · exact .inr (by simp [ActiveStream.interrupt,ActiveStream.abort,ActiveStream.conclude,he,hevents])
  · exact .inl (by simp [ActiveStream.interrupt,ActiveStream.abort,ActiveStream.conclude,he])

namespace Kept

variable {received done : List ℕ} {clock : ℕ} {st : ActiveStream}

theorem fresh (mode : SyncMode) (bulkerMode : BulkMode) :
    Kept [] [] clock (newActiveStream mode bulkerMode) where
  owned _ _ id hid := by cases hid
  shut h := by cases h
  ended := .inl rfl
  events := rfl
  buffered c hc := by cases hc
  idle _ _ _ := rfl
  replace c hc := by cases hc
  dated u hu := by cases hu

section

variable (h : Kept received done clock st)

include h

theorem errored (he : st.error ≠ "") (more : List ℕ) :
    Kept more done clock st :=
  { h with owned := fun h1 => absurd h1 he }

theorem isActive_running (ha : st.isActive) : st.status = .running := by
  obtain ⟨_,c,hc⟩ := isActive_iff.mp ha
  rcases h.ended with hr | hclosed
  · exact hr
  · rw [h.shut hclosed] at hc
    cases hc

theorem announced (payload : String) :
    Kept received done clock { st with unsavedState := some ⟨payload,clock⟩ } :=
  ⟨h.owned,h.shut,h.ended,h.events,h.buffered,h.idle,h.replace,by rintro u ⟨⟩; exact le_rfl⟩

theorem saved : Kept received done clock { st with unsavedState := none } :=
  ⟨h.owned,h.shut,h.ended,h.events,h.buffered,h.idle,h.replace,nofun⟩

theorem later {clock' : ℕ} (hclock : clock ≤ clock') :
    Kept received done clock' st :=
  { h with dated := fun u hu => (h.dated u hu).trans hclock }

theorem blamed (message : String) :
    Kept received done clock { st with errorFromLogs := message } :=
  ⟨h.owned,h.shut,h.ended,h.events,h.buffered,h.idle,h.replace,h.dated⟩

theorem registerError {err : String} (herr : err ≠ "") (more : List ℕ) :
    Kept more done clock (st.registerError err) := by
  have hne := registerError_error st herr
  revert hne
  unfold ActiveStream.registerError
  split
  · intro hne
    exact
      { owned := fun h1 => absurd h1 hne
        shut := h.shut
        ended := h.ended
        events := h.events
        buffered := fun _ _ h1 => absurd h1 hne
        idle := fun _ _ _ => rfl
        replace := h.replace
        dated := h.dated }
  · exact fun hne => h.errored hne more

theorem begin {name : String} {mode : BulkMode} {begun : ActiveStream}
    (hmode : mode = .replaceTable → st.eventsCount = 0) (herror : st.error = "")
    (hb : st.begin name ⟨mode,[]⟩ = .ok begun) : Kept received done clock begun ∧ begun.isActive := by
  unfold ActiveStream.begin at hb
  split at hb
  · cases hb
  next hclosed =>
  split at hb
  · cases hb
  next hnone =>
  simp only [Bool.not_eq_true,Option.isSome_eq_false_iff,Option.isNone_iff_eq_none] at hclosed hnone
  have hrunning : st.status = .running := h.ended.resolve_right (by simp [hclosed])
  cases hb
  refine ⟨?_,by simp [ActiveStream.isActive,herror]⟩
  constructor
  · intro _ _ id hid
    have hid := h.owned herror (by simp [hrunning]) id hid
    simpa [ActiveStream.rows,hnone] using hid
  · simp [hclosed]
  · exact .inl rfl
  · exact h.events
  · rintro c ⟨⟩ _
    exact h.idle hnone hclosed herror
  · rintro ⟨⟩
  · rintro c ⟨⟩ hreplace
    exact List.length_eq_zero_iff.mp (h.events.symm.trans (hmode hreplace))
  · exact h.dated

theorem fewer {less : List ℕ} (hless : less ⊆ received) :
    Kept less done clock st :=
  { h with owned := fun h1 h2 id hid => h.owned h1 h2 id (hless hid) }

theorem consume {size row : ℕ} {refusal : Option String} {st' : ActiveStream}
    (hactive : st.error = "" → st.isActive) (hc : st.consume row size refusal = (st',none)) :
    Kept (received ++ [row]) done clock st' := by
  unfold ActiveStream.consume at hc
  split at hc
  · next he =>
    cases hc
    exact h.errored he _
  next he =>
  cases refusal with
  | some err => cases hc
  | none =>
    have he : st.error = "" := not_not.mp he
    obtain ⟨_,c,hstream⟩ := isActive_iff.mp (hactive he)
    have hrunning := h.isActive_running (hactive he)
    cases hc
    constructor
    · intro _ _ id hid
      simp only [ActiveStream.rows,hstream,Option.map_some,Option.elim_some,List.mem_append,List.mem_singleton]
      rcases List.mem_append.mp hid with hid | hid
      · rcases h.owned he (by simp [hrunning]) id hid with hdone | hrows
        · exact .inl hdone
        · rw [ActiveStream.rows,hstream] at hrows
          exact .inr (.inl hrows)
      · exact .inr (.inr (List.mem_singleton.mp hid))
    · intro hclosed
      rw [h.shut hclosed] at hstream
      cases hstream
    · exact h.ended
    · exact h.events
    · intro c' hc' _
      rw [hstream] at hc'
      cases hc'
      simp [h.buffered c hstream he]
    · simp [hstream]
    · intro c' hc' hmode
      rw [hstream] at hc'
      cases hc'
      exact h.replace c hstream hmode
    · exact h.dated

end

variable {answer : Option String}

theorem commit (h : Kept received done clock st) (strict : Bool)
    (hanswer : answer ≠ some "") :
    Kept received (done ++ chunkRows (st.commit strict answer).2) clock (st.commit strict answer).1 := by
  obtain ⟨hnone,hcommit⟩ | ⟨err,herr,hcommit⟩ | ⟨c,hc,he,hcommit⟩ := commit_cases st strict hanswer
  · rw [hcommit]
    refine ⟨fun h1 h2 id hid => ?_,fun _ => rfl,h.ended,?_,nofun,fun _ _ _ => rfl,nofun,h.dated⟩
    · have hid := h.owned h1 h2 id hid
      simpa [chunkRows,ActiveStream.rows,ActiveStream.drained,hnone] using hid
    · simpa [chunkRows,ActiveStream.drained] using h.events
  · rw [hcommit]
    refine ⟨fun h1 => absurd h1 herr,fun _ => rfl,h.ended,?_,nofun,fun _ _ _ => rfl,nofun,h.dated⟩
    simpa [chunkRows,ActiveStream.drained] using h.events
  · rw [hcommit]
    refine ⟨fun _ h2 id hid => ?_,fun _ => rfl,h.ended,?_,nofun,fun _ _ _ => rfl,nofun,h.dated⟩
    · have hid := h.owned he h2 id hid
      simpa [chunkRows,ActiveStream.rows,ActiveStream.drained,hc] using hid
    · simp [chunkRows,h.events,h.buffered c hc he]

theorem settled (h : Kept received done clock st) {strict : Bool}
    (hanswer : answer ≠ some "")
    (hstatus : st.status ≠ .cancelled) (he : (st.commit strict answer).1.error = "") :
    ∀ id ∈ received, id ∈ done ++ chunkRows (st.commit strict answer).2 := by
  intro id hid
  have hstatus : (st.commit strict answer).1.status ≠ .cancelled := by rwa [commit_status st strict hanswer]
  rcases (h.commit strict hanswer).owned he hstatus id hid with hid | hid
  · exact hid
  · simp [ActiveStream.rows,commit_bulkerStream st strict hanswer] at hid

theorem of_closed {st : ActiveStream} (hclosed : st.closed = true) (hnone : st.bulkerStream = none)
    (hevents : st.eventsCount = done.length) (hdated : ∀ u, st.unsavedState = some u → u.clock ≤ clock)
    (howned : st.error = "" → st.status ≠ .cancelled → ∀ id ∈ received, id ∈ done) :
    Kept received done clock st where
  owned h1 h2 id hid := .inl (howned h1 h2 id hid)
  shut _ := hnone
  ended := .inr hclosed
  events := hevents
  buffered c hc := by simp [hnone] at hc
  idle _ h := by simp [hclosed] at h
  replace c hc := by simp [hnone] at hc
  dated := hdated

theorem close (h : Kept received done clock st) (complete cancelled strict : Bool)
    (hanswer : answer ≠ some "") :
    Kept received (done ++ chunkRows (st.close complete cancelled strict answer).2) clock
      (st.close complete cancelled strict answer).1 := by
  cases complete with
  | true =>
    have hc := concluded (st.commit strict answer).1 cancelled
    have hk := h.commit strict hanswer
    have hdrained := commit_bulkerStream st strict hanswer
    refine of_closed hc.closed (hc.bulkerStream.trans hdrained) (hc.eventsCount.trans hk.events)
      (fun u hu => hk.dated u (hc.unsavedState ▸ hu)) ?_
    intro h1 h2 id hid
    rcases hk.owned (hc.clean h1) (hc.sound h1 h2) id hid with hid | hid
    · exact hid
    · simp [ActiveStream.rows,hdrained] at hid
  | false =>
    have hc := concluded (st.interrupt cancelled) cancelled
    obtain ⟨hnone,hevents,hunsaved⟩ := interrupt_frame st cancelled
    have hdone : done ++ chunkRows (st.close false cancelled strict answer).2 = done := by
      simp [ActiveStream.close,chunkRows]
    rw [hdone]
    refine of_closed hc.closed (hc.bulkerStream.trans hnone) (hc.eventsCount.trans (hevents.trans h.events))
      (fun u hu => h.dated u (hunsaved ▸ hc.unsavedState ▸ hu)) ?_
    intro h1 h2
    rcases interrupt_conclude st cancelled with he | hs
    · exact absurd h1 he
    · exact absurd hs h2

end Kept

end Jitsu.ReadSideCar
