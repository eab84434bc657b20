import Jitsu.ReadSideCar.Tracking

namespace Jitsu.ReadSideCar

open Lib

def StateRow.shared : StateRow → Bool
  | .global _ => true
  | .legacy _ => true
  | _ => false

def SideCar.Settled (s : SideCar) (name : String) : Prop := ∀ id ∈ s.arrived name, id ∈ s.done name

def Write.Covers (w : Write) (s : SideCar) (name : String) : Prop :=
  ∀ id ∈ s.arrived name, id < w.clock → id ∈ doneIn w.committed name

def Covered (covers : Option String → String → Prop) (s : SideCar) : Prop :=
  ∀ w ∈ s.writes, ∀ name, covers w.origin name → w.clock ≤ s.clock ∧ w.Covers s name

structure Steered (name : String) (P : SideCar → Prop) (Q : ActiveStream → Prop) : Prop where
  put : ∀ {s u}, P s → Q u → P (s.put name (u,none))
  held : ∀ {s st}, P s → s.streams.get name = some st → Q st
  mark : ∀ {s : SideCar} last err, P s → P { s with lastStream := last, firstErr := err }
  fresh : ∀ mode bulk, Q (newActiveStream mode bulk)
  begun : ∀ {st u : ActiveStream} {chunk}, st.begin name chunk = .ok u → Q u
  consumed : ∀ {st u : ActiveStream} {id size refusal}, Q st → st.consume id size refusal = (u,none) → Q u
  registered : ∀ {st : ActiveStream} err, Q st → Q (st.registerError err)

namespace Steered

variable {name : String} {P : SideCar → Prop} {Q : ActiveStream → Prop} {s : SideCar} {st : ActiveStream}
  (h : Steered name P Q) (hs : P s)

include h hs

theorem streamErr (err : String) : P (s.streamErr name err) := by
  unfold SideCar.streamErr
  split
  · exact hs
  · next hst => exact h.put hs (h.registered err (h.held hs hst))

theorem startChunk (hst : Q st) (mode : BulkMode) (create : Option String) :
    P (s.startChunk name st mode create).1 := by
  unfold SideCar.startChunk
  split
  · exact h.mark _ _ (h.put hs hst)
  split
  · exact h.mark _ _ (h.put hs hst)
  · next hb => exact h.mark _ _ (h.put hs (h.begun hb))

theorem openStream (cfg : Config) (create : Option String) : P (s.openStream cfg name create).1 := by
  unfold SideCar.openStream
  split
  · exact hs
  split
  · exact h.startChunk hs (h.fresh _ _) _ create
  · next hst =>
    split
    · exact hs
    · exact h.startChunk hs (h.held hs hst) _ create

theorem openOrFail (cfg : Config) (create : Option String) : P (s.openOrFail cfg name create).1 := by
  have ho := h.openStream hs cfg create
  unfold SideCar.openOrFail
  split
  · next heq =>
    rw [heq] at ho
    exact ho
  · next heq =>
    rw [heq] at ho
    exact ho
  · next heq =>
    rw [heq] at ho
    exact h.streamErr ho _

theorem consumeRow (size : ℕ) (refusal : Option String) : P (s.consumeRow name size refusal) := by
  unfold SideCar.consumeRow
  split
  · exact hs
  · next hst =>
    split
    · next heq => exact h.put hs (h.consumed (h.held hs hst) heq)
    · exact h.streamErr hs _

theorem processTraceError (message internalMessage : String) :
    P (s.processTraceError name message internalMessage) := by
  unfold SideCar.processTraceError
  split
  · split
    · exact hs
    · next hst => exact h.put hs (h.registered _ (h.held hs hst))
  · split
    · exact h.mark _ _ hs
    · unfold SideCar.registerErr
      split
      · exact h.mark _ _ hs
      · exact hs

end Steered

structure Passive (s t : SideCar) : Prop where
  writes : t.writes = s.writes
  received : t.received = s.received
  clock : t.clock = s.clock

namespace Passive

variable {cfg : Config} {s t u : SideCar} {name : String}

theorem refl (s : SideCar) : Passive s s := ⟨rfl,rfl,rfl⟩

theorem trans (h : Passive s t) (h' : Passive t u) : Passive s u :=
  ⟨h'.writes.trans h.writes,h'.received.trans h.received,h'.clock.trans h.clock⟩

theorem put (s : SideCar) (name : String) (r : ActiveStream × Option Chunk) : Passive s (s.put name r) :=
  ⟨rfl,rfl,rfl⟩

theorem registerErr (s : SideCar) (err : String) : Passive s (s.registerErr err) := by
  unfold SideCar.registerErr
  split <;> exact ⟨rfl,rfl,rfl⟩

theorem steered (s : SideCar) (name : String) : Steered name (Passive s) fun _ => True where
  put h _ := h.trans (put _ _ _)
  held _ _ := trivial
  mark _ _ h := ⟨h.writes,h.received,h.clock⟩
  fresh _ _ := trivial
  begun _ := trivial
  consumed _ _ := trivial
  registered _ _ := trivial

theorem blame (s : SideCar) (message : String) : Passive s (s.blame message) := by
  unfold SideCar.blame
  split
  · exact refl s
  · exact put s _ _

theorem processLog (cfg : Config) (s : SideCar) (level : LogLevel) (message : String) :
    Passive s (s.processLog cfg level message) := by
  unfold SideCar.processLog
  split
  · split
    · exact (blame s message).trans (registerErr _ _)
    · exact blame s message
  · exact refl s

end Passive

namespace SideCar

variable {s : SideCar}

theorem saveUnsaved_frame (cfg : Config) (name : String) (stored : Bool) :
    SavedFrame s (s.saveUnsaved cfg name stored) := by
  unfold saveUnsaved
  split
  · exact ⟨rfl,rfl,rfl,rfl⟩
  · next st _ =>
    obtain ⟨hf,_⟩ := saveState_frame (s := s) cfg name (some name) st.unsavedState stored
    exact ⟨hf.received,(List.append_nil _).trans hf.commits,hf.clock,hf.firstErr⟩

structure CheckpointFrame (s t : SideCar) : Prop where
  received : t.received = s.received
  commits : s.commits <+: t.commits
  clock : t.clock = s.clock
  firstErr : t.firstErr = s.firstErr

theorem SavedFrame.checkpointed {t u : SideCar} (h : CheckpointFrame s t) (hf : SavedFrame t u) :
    CheckpointFrame s u :=
  ⟨hf.received.trans h.received,hf.commits ▸ h.commits,hf.clock.trans h.clock,hf.firstErr.trans h.firstErr⟩

theorem checkpointIfNecessary_frame (cfg : Config) (target : Option String) (reply : Reply) :
    CheckpointFrame s (s.checkpointIfNecessary cfg target reply) := by
  have hrefl : CheckpointFrame s s := ⟨rfl,List.prefix_rfl,rfl,rfl⟩
  have hput : ∀ name r, CheckpointFrame s (s.put name r) := fun _ _ => ⟨rfl,List.prefix_append _ _,rfl,rfl⟩
  unfold checkpointIfNecessary
  split
  · exact hrefl
  split
  · exact hrefl
  unfold checkpoint
  split
  · exact (saveUnsaved_frame cfg _ _).checkpointed hrefl
  split
  · exact hrefl
  split
  · split
    · exact hput _ _
    · exact (saveUnsaved_frame cfg _ _).checkpointed (hput _ _)
  · exact hrefl

end SideCar

structure Owning (cfg : Config) (covers : Option String → String → Prop) : Prop where
  own : ∀ o n, covers (some o) n → n = o
  plain : ∀ o n, covers (some o) n → (cfg.catalog.get o).isSome → o ≠ legacyState ∧ o ≠ globalState

namespace Covered

variable {cfg : Config} {covers : Option String → String → Prop} {s t : SideCar} {name : String}
  {st : ActiveStream} {reply : Reply}

section

variable (h : Covered covers s)

include h

theorem congr (hw : t.writes = s.writes) (hr : t.received = s.received)
    (hc : s.clock ≤ t.clock) : Covered covers t := by
  intro w hmem n hn
  obtain ⟨hclock,hcovers⟩ := h w (hw ▸ hmem) n hn
  refine ⟨hclock.trans hc,fun id hid => hcovers id ?_⟩
  rwa [SideCar.arrived,hr] at hid

theorem passive (hp : Passive s t) : Covered covers t :=
  h.congr hp.writes hp.received hp.clock.ge

theorem receive (name : String) : Covered covers (s.receive name) := by
  intro w hmem n hn
  obtain ⟨hclock,hcovers⟩ := h w hmem n hn
  refine ⟨hclock,fun id hid hlt => ?_⟩
  simp only [SideCar.arrived,SideCar.receive,List.filter_append,List.map_append,List.mem_append] at hid
  rcases hid with hid | hid
  · exact hcovers id hid hlt
  · simp only [List.mem_map,List.mem_filter,List.mem_singleton] at hid
    obtain ⟨_,⟨rfl,_⟩,rfl⟩ := hid
    exact absurd hlt (Nat.not_lt.mpr hclock)

theorem saveState {key : String} {origin : Option String} {data : Option Unsaved}
    (stored : Bool) (hdated : ∀ u, data = some u → u.clock ≤ s.clock)
    (hsettled : s.savable cfg key → ∀ n, covers origin n → s.Settled n) :
    Covered covers (s.saveState cfg key origin data stored) := by
  unfold SideCar.saveState
  split
  · exact h
  next u =>
  split
  · next hsavable =>
    unfold SideCar.storeState
    split
    · exact h
    · intro w hmem n hn
      rcases List.mem_append.mp hmem with hmem | hmem
      · exact h w hmem n hn
      · cases List.mem_singleton.mp hmem
        exact ⟨hdated u rfl,fun id hid _ => hsettled hsavable n hn id hid⟩
  · exact h

end

theorem saveUnsaved (ht : Tracked cfg s) (h : Covered covers s) (stored : Bool)
    (hsettled : s.savable cfg name → ∀ n, covers (some name) n → s.Settled n) :
    Covered covers (s.saveUnsaved cfg name stored) := by
  unfold SideCar.saveUnsaved
  split
  · exact h
  · next st hst =>
    exact (h.saveState stored (ht.kept name st hst).dated hsettled).passive (Passive.put _ _ _)

theorem savable_error (hown : Owning cfg covers) (ht : Tracked cfg s) (hst : s.streams.get name = some st)
    (hs : s.savable cfg name) {n : String} (hn : covers (some name) n) : st.error = "" := by
  have hplain := hown.plain name n hn (ht.known name st hst)
  simpa [SideCar.savable,hplain,hst] using hs

theorem settled_put {r : ActiveStream × Option Chunk}
    (h : ∀ id ∈ s.arrived name, id ∈ s.done name ++ chunkRows r.2) : (s.put name r).Settled name := by
  intro id hid
  rw [SideCar.done_put_self]
  exact h id hid

section

variable (hown : Owning cfg covers) (ht : Tracked cfg s)

include hown ht

theorem checkpoint (h : Covered covers s)
    (hst : s.streams.get name = some st) (hanswer : reply.complete ≠ some "") :
    Covered covers (s.checkpoint cfg name st reply) := by
  have hk := ht.kept name st hst
  unfold SideCar.checkpoint
  split
  · next hsuccess =>
    refine saveUnsaved ht h _ (fun hs n hn => ?_)
    cases hown.own name n hn
    intro id hid
    have hnone := hk.shut (hk.ended.resolve_left (by simp [hsuccess]))
    rcases hk.owned (savable_error hown ht hst hs hn) (by simp [hsuccess]) id hid with hid | hid
    · exact hid
    · simp [ActiveStream.rows,hnone] at hid
  split
  · exact h
  next hactive =>
  have hrunning := hk.isActive_running (not_not.mp hactive)
  split
  · split
    · exact h.passive (Passive.put _ _ _)
    · next he =>
      refine saveUnsaved (ht.commit hst false hanswer) (h.passive (Passive.put _ _ _)) _ (fun _ n hn => ?_)
      cases hown.own name n hn
      exact settled_put (hk.settled hanswer (by simp [hrunning]) (not_not.mp he))
  · exact h

theorem checkpointIfNecessary (h : Covered covers s)
    (target : Option String) (hanswer : reply.complete ≠ some "") :
    Covered covers (s.checkpointIfNecessary cfg target reply) := by
  unfold SideCar.checkpointIfNecessary
  split
  · exact h
  split
  · exact h
  · next hst => exact checkpoint hown ht h hst hanswer

theorem closeOne (h : Covered covers s)
    (hst : s.streams.get name = some st) (complete strict : Bool) (hanswer : reply.complete ≠ some "")
    (hstatus : complete → covers (some name) name → st.status ≠ .cancelled) :
    Covered covers (s.closeOne cfg name st complete strict reply) := by
  unfold SideCar.closeOne
  split
  · next hcomplete =>
    subst hcomplete
    have ht' := ht.close hst true s.cancelled strict hanswer
    refine saveUnsaved ht' (h.passive (Passive.put _ _ _)) _ (fun hs n hn => ?_)
    cases hown.own name n hn
    have he := savable_error hown ht' SideCar.get_put_self hs hn
    exact settled_put ((ht.kept name st hst).settled hanswer (hstatus rfl hn) ((concluded _ _).clean he))
  · exact h.passive (Passive.put _ _ _)

theorem saveShared (h : Covered covers s)
    (hanswer : reply.complete ≠ some "") {key : String} (hkey : key = globalState ∨ key = legacyState)
    (payload : String)
    (hshared : ¬s.isCriticalError cfg → ∀ n, covers none n →
      (s.checkpointIfNecessary cfg s.lastStream reply).Settled n) :
    Covered covers ((s.checkpointIfNecessary cfg s.lastStream reply).saveState cfg key none
      (some ⟨payload,s.clock⟩) reply.globalStored) := by
  have hf := SideCar.checkpointIfNecessary_frame (s := s) cfg s.lastStream reply
  refine (checkpointIfNecessary hown ht h s.lastStream hanswer).saveState _ ?_ (fun hs => hshared ?_)
  · rintro u ⟨⟩
    exact hf.clock.ge
  · have hs : (s.checkpointIfNecessary cfg s.lastStream reply).isCriticalError cfg = false := by
      rcases hkey with rfl | rfl <;> simpa [SideCar.savable,globalState,legacyState] using hs
    rw [SideCar.isCriticalError,hf.firstErr] at hs
    exact Bool.eq_false_iff.mp hs

theorem processState (h : Covered covers s) (row : StateRow)
    (hanswer : reply.complete ≠ some "")
    (hshared : row.shared → ¬s.isCriticalError cfg → ∀ n, covers none n →
      (s.checkpointIfNecessary cfg s.lastStream reply).Settled n) :
    Covered covers (s.processState cfg row reply) := by
  unfold SideCar.processState
  split
  · exact saveShared hown ht h hanswer (.inl rfl) _ (hshared rfl)
  · split
    · exact h
    · next st hst =>
      exact checkpointIfNecessary hown (ht.putPlain hst ((ht.kept _ st hst).announced _))
        (h.passive (Passive.put _ _ _)) _ hanswer
  · exact saveShared hown ht h hanswer (.inr rfl) _ (hshared rfl)
  · exact h

end

theorem processRecord (h : Covered covers s) (name : String) (size : ℕ) (reply : Reply) :
    Covered covers (s.processRecord cfg name size reply) := by
  have ho := h.passive ((Passive.steered s name).openOrFail (.refl s) cfg reply.create)
  unfold SideCar.processRecord
  split
  · next heq =>
    rw [heq] at ho
    exact (ho.passive ((Passive.steered _ name).consumeRow (.refl _) size reply.consume)).receive name
  · next heq =>
    rw [heq] at ho
    exact ho.receive name

theorem move {a : Action} (hown : Owning cfg covers) (ht : Tracked cfg s) (h : Covered covers s)
    (hworded : a.Worded)
    (hfinished : ∀ d reply st, a = .message (.finished d true) reply → s.streams.get d.key = some st →
      covers (some d.key) d.key → st.status ≠ .cancelled)
    (hshared : ∀ line row reply n, a = .message (.state line row) reply → s.lastStateMessage ≠ line →
      row.shared → ¬s.isCriticalError cfg → covers none n →
      (s.checkpointIfNecessary cfg s.lastStream reply).Settled n)
    (hmove : Move cfg s a t) : Covered covers t := by
  cases hmove with
  | message m reply _ =>
    suffices hm : Covered covers (s.processMessage cfg reply m) from hm.congr rfl rfl (Nat.le_succ _)
    cases m with
    | record d size => exact h.processRecord d.key size reply
    | state line row =>
      simp only [SideCar.processMessage]
      split
      · next hline =>
        exact (processState hown ht h row hworded.1
          (fun hs hcritical n => hshared line row reply n rfl hline hs hcritical)).congr rfl rfl le_rfl
      · exact h
    | started d => exact h.passive ((Passive.steered s _).openOrFail (.refl s) cfg _)
    | finished d complete =>
      simp only [SideCar.processMessage,SideCar.closeStream]
      split
      · exact h
      · next st hst =>
        refine closeOne hown ht h hst complete false hworded.1 ?_
        rintro rfl
        exact hfinished d reply st rfl hst
    | traceError d message internalMessage =>
      exact h.passive ((Passive.steered s _).processTraceError (.refl s) _ _)
    | log level message => exact h.passive (Passive.processLog cfg s level message)
    | ignored => exact h
  | cancel => exact h.congr rfl rfl le_rfl
  | endOfInput overtime _ => exact h.congr rfl rfl le_rfl
  | close name reply _ hst hrunning =>
    exact closeOne hown ht h hst _ true hworded (fun _ _ => by simp [hrunning])
  | report _ _ => exact h.congr rfl rfl le_rfl
  | crash => exact h.congr rfl rfl le_rfl

end Covered

end Jitsu.ReadSideCar
