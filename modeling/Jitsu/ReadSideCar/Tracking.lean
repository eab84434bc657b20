import Jitsu.ReadSideCar.Kept

namespace Jitsu.ReadSideCar

open Lib

def Spares (earlier later : Commit) : Prop :=
  earlier.stream = later.stream → later.chunk.mode = .replaceTable → earlier.chunk.rows = []

structure Tracked (cfg : Config) (s : SideCar) : Prop where
  kept : ∀ name st, s.streams.get name = some st → Kept (s.arrived name) (s.done name) s.clock st
  known : ∀ name st, s.streams.get name = some st → (cfg.catalog.get name).isSome
  absent : ∀ name, (cfg.catalog.get name).isSome → s.streams.get name = none → s.arrived name = []
  unopened : ∀ name, s.streams.get name = none → s.done name = []
  spared : s.commits.Pairwise Spares

def Message.Worded : Message → Prop
  | .traceError d message internalMessage => d.key ≠ "" → message ≠ "" ∨ internalMessage ≠ ""
  | _ => True

def Action.Worded : Action → Prop
  | .message m reply => reply.complete ≠ some "" ∧ m.Worded
  | .close _ reply => reply.complete ≠ some ""
  | _ => True

instance : DecidablePred Message.Worded
  | .traceError _ _ _ => inferInstanceAs (Decidable (_ → _ ∨ _))
  | .record _ _ | .state _ _ | .started _ | .finished _ _ | .log _ _ | .ignored => isTrue trivial

instance : DecidablePred Action.Worded
  | .message _ _ => inferInstanceAs (Decidable (_ ∧ _))
  | .close _ _ => inferInstanceAs (Decidable (_ ≠ _))
  | .cancel | .endOfInput _ | .report | .crash => isTrue trivial

theorem doneIn_append (commits : List Commit) (chunk : Option Chunk) (name n : String) :
    doneIn (commits ++ (chunk.map (Commit.mk name)).toList) n =
      if name = n then doneIn commits n ++ chunkRows chunk else doneIn commits n := by
  cases chunk with
  | none => simp [doneIn,chunkRows]
  | some c => by_cases hn : name = n <;> simp [doneIn,chunkRows,List.filter_append,hn]

theorem mem_done {commits : List Commit} {c : Commit} (h : c ∈ commits) :
    c.chunk.rows ⊆ doneIn commits c.stream := by
  intro id hid
  exact List.mem_flatMap.mpr ⟨c,List.mem_filter.mpr ⟨h,by simp⟩,hid⟩

namespace SideCar

variable {s : SideCar} {name n : String} {r : ActiveStream × Option Chunk}

@[simp] theorem get_put_self : (s.put name r).streams.get name = some r.1 := s.streams.get_set_self name r.1

theorem get_put_ne (h : n ≠ name) :
    (s.put name r).streams.get n = s.streams.get n := s.streams.get_set_ne r.1 h

@[simp] theorem arrived_put : (s.put name r).arrived n = s.arrived n := rfl

@[simp] theorem clock_put : (s.put name r).clock = s.clock := rfl

theorem done_put_self : (s.put name r).done name = s.done name ++ chunkRows r.2 := by
  rw [done,put,doneIn_append,if_pos rfl]
  rfl

theorem done_put_ne (h : n ≠ name) : (s.put name r).done n = s.done n := by
  rw [done,put,doneIn_append,if_neg h.symm]
  rfl

structure SavedFrame (s t : SideCar) : Prop where
  received : t.received = s.received
  commits : t.commits = s.commits
  clock : t.clock = s.clock
  firstErr : t.firstErr = s.firstErr

theorem saveState_frame (cfg : Config) (key : String) (origin : Option String) (data : Option Unsaved)
    (stored : Bool) :
    SavedFrame s (s.saveState cfg key origin data stored) ∧
    (s.saveState cfg key origin data stored).streams = s.streams := by
  unfold saveState storeState
  cases data with
  | none => exact ⟨⟨rfl,rfl,rfl,rfl⟩,rfl⟩
  | some state =>
    dsimp only
    split
    · split <;> exact ⟨⟨rfl,rfl,rfl,rfl⟩,rfl⟩
    · exact ⟨⟨rfl,rfl,rfl,rfl⟩,rfl⟩

end SideCar

theorem preferred_ne {text other : String} (h : text ≠ "" ∨ other ≠ "") :
    SideCar.preferred text other ≠ "" := by
  unfold SideCar.preferred
  split
  · next hc => exact hc.2
  · next hc =>
    intro he
    exact hc ⟨.inr he,h.resolve_left (fun hne => hne he)⟩

theorem append_ne {first : String} (second : String) (h : first ≠ "") : first ++ second ≠ "" := by
  simp [h]

namespace Tracked

variable {cfg : Config} {s t : SideCar} {name : String} {st : ActiveStream} {r : ActiveStream × Option Chunk}

section

variable (h : Tracked cfg s)

include h

theorem congr (h1 : t.streams = s.streams) (h2 : t.received = s.received)
    (h3 : t.commits = s.commits) (h4 : s.clock ≤ t.clock) : Tracked cfg t := by
  have harrived : ∀ n, t.arrived n = s.arrived n := fun n => by rw [SideCar.arrived,h2,SideCar.arrived]
  have hdone : ∀ n, t.done n = s.done n := fun n => by rw [SideCar.done,h3,SideCar.done]
  constructor
  · intro n u hu
    rw [harrived,hdone]
    exact (h.kept n u (h1 ▸ hu)).later h4
  · exact fun n u hu => h.known n u (h1 ▸ hu)
  · intro n hn hu
    rw [harrived]
    exact h.absent n hn (h1 ▸ hu)
  · intro n hu
    rw [hdone]
    exact h.unopened n (h1 ▸ hu)
  · rw [h3]
    exact h.spared

theorem put (hcat : (cfg.catalog.get name).isSome)
    (hk : Kept (s.arrived name) (s.done name ++ chunkRows r.2) s.clock r.1)
    (hreplace : ∀ c, r.2 = some c → c.mode = .replaceTable → s.done name = []) :
    Tracked cfg (s.put name r) := by
  constructor
  · intro n u hu
    by_cases hn : n = name
    · subst hn
      rw [SideCar.get_put_self,Option.some.injEq] at hu
      subst hu
      rw [SideCar.done_put_self]
      exact hk
    · rw [SideCar.get_put_ne hn] at hu
      rw [SideCar.done_put_ne hn]
      exact h.kept n u hu
  · intro n u hu
    by_cases hn : n = name
    · exact hn ▸ hcat
    · exact h.known n u (by rwa [SideCar.get_put_ne hn] at hu)
  · intro n hcat' hu
    by_cases hn : n = name
    · subst hn
      simp at hu
    · exact h.absent n hcat' (by rwa [SideCar.get_put_ne hn] at hu)
  · intro n hu
    by_cases hn : n = name
    · subst hn
      simp at hu
    · rw [SideCar.done_put_ne hn]
      exact h.unopened n (by rwa [SideCar.get_put_ne hn] at hu)
  · refine List.pairwise_append.mpr ⟨h.spared,?_,?_⟩
    · cases r.2 <;> simp
    · intro a ha b hb hstream hmode
      cases hc : r.2 with
      | none => simp [hc] at hb
      | some c =>
        simp only [hc,Option.map_some,Option.toList_some,List.mem_singleton] at hb
        subst hb
        have hrows := mem_done ha
        rw [show a.stream = name from hstream] at hrows
        have hnone : doneIn s.commits name = [] := hreplace c hc hmode
        rw [hnone] at hrows
        exact List.subset_nil.mp hrows

section

variable (hst : s.streams.get name = some st)

include hst

theorem putPlain {st' : ActiveStream}
    (hk : Kept (s.arrived name) (s.done name) s.clock st') : Tracked cfg (s.put name (st',none)) :=
  h.put (h.known name st hst) (by simpa [chunkRows] using hk) (by rintro c ⟨⟩)

theorem commit (strict : Bool)
    {answer : Option String}
    (hanswer : answer ≠ some "") : Tracked cfg (s.put name (st.commit strict answer)) :=
  have hk := h.kept name st hst
  h.put (h.known name st hst) (hk.commit strict hanswer) (fun c hc => hk.replace c (commit_chunk hc))

theorem close (complete cancelled strict : Bool)
    {answer : Option String} (hanswer : answer ≠ some "") :
    Tracked cfg (s.put name (st.close complete cancelled strict answer)) :=
  have hk := h.kept name st hst
  h.put (h.known name st hst) (hk.close complete cancelled strict hanswer)
    (fun c hc => hk.replace c (close_chunk hc))

end

theorem saveState (key : String) (origin : Option String) (data : Option Unsaved)
    (stored : Bool) : Tracked cfg (s.saveState cfg key origin data stored) := by
  obtain ⟨hf,hstreams⟩ := SideCar.saveState_frame (s := s) cfg key origin data stored
  exact h.congr hstreams hf.received hf.commits hf.clock.ge

theorem saveUnsaved (stored : Bool) : Tracked cfg (s.saveUnsaved cfg name stored) := by
  unfold SideCar.saveUnsaved
  split
  · exact h
  · next st hst =>
    have hsaved := h.saveState name (some name) st.unsavedState stored
    have hst' : (s.saveState cfg name (some name) st.unsavedState stored).streams.get name = some st := by
      rw [(SideCar.saveState_frame cfg name (some name) st.unsavedState stored).2]
      exact hst
    exact hsaved.putPlain hst' (hsaved.kept name st hst').saved

end

variable {reply : Reply}

section

variable (h : Tracked cfg s)

include h

theorem checkpoint (hst : s.streams.get name = some st)
    (hanswer : reply.complete ≠ some "") : Tracked cfg (s.checkpoint cfg name st reply) := by
  unfold SideCar.checkpoint
  split
  · exact h.saveUnsaved _
  split
  · exact h
  split
  · split
    · exact h.commit hst false hanswer
    · exact (h.commit hst false hanswer).saveUnsaved _
  · exact h

theorem checkpointIfNecessary (target : Option String)
    (hanswer : reply.complete ≠ some "") : Tracked cfg (s.checkpointIfNecessary cfg target reply) := by
  unfold SideCar.checkpointIfNecessary
  split
  · exact h
  split
  · exact h
  · next hst => exact h.checkpoint hst hanswer

theorem processState (row : StateRow)
    (hanswer : reply.complete ≠ some "") :
    Tracked cfg (s.processState cfg row reply) := by
  unfold SideCar.processState
  split
  · exact (h.checkpointIfNecessary s.lastStream hanswer).saveState _ _ _ _
  · split
    · exact h
    · next st hst =>
      exact (h.putPlain hst ((h.kept _ st hst).announced _)).checkpointIfNecessary _ hanswer
  · exact (h.checkpointIfNecessary s.lastStream hanswer).saveState _ _ _ _
  · exact h

theorem closeOne (hst : s.streams.get name = some st) (complete strict : Bool)
    (hanswer : reply.complete ≠ some "") : Tracked cfg (s.closeOne cfg name st complete strict reply) := by
  unfold SideCar.closeOne
  split
  · exact (h.close hst complete s.cancelled strict hanswer).saveUnsaved _
  · exact h.close hst complete s.cancelled strict hanswer

theorem closeStream (complete : Bool)
    (hanswer : reply.complete ≠ some "") :
    Tracked cfg (s.closeStream cfg name complete reply) := by
  unfold SideCar.closeStream
  split
  · exact h
  · next hst => exact h.closeOne hst complete false hanswer

theorem registered (hst : s.streams.get name = some st) {err : String} (herr : err ≠ "") :
    Tracked cfg (s.put name (st.registerError err,none)) :=
  h.putPlain hst ((h.kept name st hst).registerError herr _)

theorem streamErr {err : String} (herr : err ≠ "") :
    Tracked cfg (s.streamErr name err) := by
  unfold SideCar.streamErr
  split
  · exact h
  · next hst => exact h.registered hst herr

end

theorem openMode_replaceTable {mode : SyncMode} {stream : Option ActiveStream}
    (h : SideCar.openMode cfg mode stream = .replaceTable) : stream.elim 0 (fun s => s.eventsCount) = 0 := by
  unfold SideCar.openMode at h
  split at h
  · cases h
  split at h
  · cases h
  · next hzero => exact Nat.eq_zero_of_not_pos hzero

end Tracked

structure Opens (cfg : Config) (name : String) (r : SideCar × SideCar.Opened) : Prop where
  tracked : Tracked cfg r.1
  unknown : r.2 = .unknown → cfg.catalog.get name = none
  ready : r.2 = .ready → ∃ st, r.1.streams.get name = some st ∧ (st.error = "" → st.isActive)
  found : r.2 ≠ .unknown → ∃ st, r.1.streams.get name = some st

namespace Tracked

variable {cfg : Config} {s : SideCar} {name : String} {st : ActiveStream}

section

variable (h : Tracked cfg s)

include h

theorem startChunk {mode : BulkMode} (create : Option String)
    (hcat : (cfg.catalog.get name).isSome) (hk : Kept (s.arrived name) (s.done name) s.clock st)
    (herror : st.error = "")
    (hmode : mode = .replaceTable → st.eventsCount = 0) :
    Opens cfg name (s.startChunk name st mode create) := by
  have hput : ∀ u, Kept (s.arrived name) (s.done name) s.clock u →
      Tracked cfg { s.put name (u,none) with lastStream := some name } := fun u hu =>
    (h.put (r := (u,none)) hcat (by simpa [chunkRows] using hu) (by rintro c ⟨⟩)).congr rfl rfl rfl le_rfl
  have hget : ∀ u, (s.put name (u,none)).streams.get name = some u := fun u => SideCar.get_put_self
  unfold SideCar.startChunk
  cases create with
  | some err => exact ⟨hput st hk,by simp,by simp,fun _ => ⟨st,hget st⟩⟩
  | none =>
    dsimp only
    cases hb : st.begin name ⟨mode,[]⟩ with
    | error err => exact ⟨hput st hk,by simp,by simp,fun _ => ⟨st,hget st⟩⟩
    | ok begun =>
      obtain ⟨hbegun,hactive⟩ := hk.begin hmode herror hb
      exact ⟨hput begun hbegun,by simp,fun _ => ⟨begun,hget begun,fun _ => hactive⟩,
        fun _ => ⟨begun,hget begun⟩⟩

theorem openStream (name : String) (create : Option String) :
    Opens cfg name (s.openStream cfg name create) := by
  unfold SideCar.openStream
  split
  · next hcat => exact ⟨h,fun _ => hcat,by simp,by simp⟩
  next mode hmode =>
  have hcat : (cfg.catalog.get name).isSome := by simp [hmode]
  split
  · next hnone =>
    refine h.startChunk create hcat ?_ rfl (fun _ => rfl)
    rw [h.absent name hcat hnone,h.unopened name hnone]
    exact Kept.fresh mode _
  · next st hst =>
    split
    · next hbusy =>
      exact ⟨h,by simp,fun _ => ⟨st,hst,fun he => hbusy.resolve_left (not_not.mpr he)⟩,fun _ => ⟨st,hst⟩⟩
    · next hfree =>
      have herror : st.error = "" := not_not.mp (fun he => hfree (.inl he))
      exact h.startChunk create hcat (h.kept name st hst) herror openMode_replaceTable

theorem openOrFail (name : String) (create : Option String) :
    Tracked cfg (s.openOrFail cfg name create).1 ∧
    ((s.openOrFail cfg name create).2 = true →
      ∃ st, (s.openOrFail cfg name create).1.streams.get name = some st ∧ (st.error = "" → st.isActive)) ∧
    ((s.openOrFail cfg name create).2 = false → cfg.catalog.get name = none ∨
      ∃ st, (s.openOrFail cfg name create).1.streams.get name = some st ∧ st.error ≠ "") := by
  have ho := h.openStream name create
  unfold SideCar.openOrFail
  split
  · next t heq =>
    rw [heq] at ho
    exact ⟨ho.tracked,fun _ => ho.ready rfl,by simp⟩
  · next t heq =>
    rw [heq] at ho
    exact ⟨ho.tracked,by simp,fun _ => .inl (ho.unknown rfl)⟩
  · next t err heq =>
    rw [heq] at ho
    have herr : "error opening stream: " ++ err ≠ "" := append_ne err (by decide)
    obtain ⟨st,hst⟩ := ho.found (by simp)
    refine ⟨ho.tracked.streamErr herr,by simp,
      fun _ => .inr ⟨st.registerError _,?_,registerError_error st herr⟩⟩
    dsimp only at hst ⊢
    rw [SideCar.streamErr,hst]
    exact SideCar.get_put_self

theorem receive
    (hk : cfg.catalog.get name = none ∨
      ∃ st, s.streams.get name = some st ∧ Kept (s.arrived name ++ [s.clock]) (s.done name) s.clock st) :
    Tracked cfg (s.receive name) := by
  have hself : (s.receive name).arrived name = s.arrived name ++ [s.clock] := by
    simp [SideCar.arrived,SideCar.receive]
  have hne : ∀ n, n ≠ name → (s.receive name).arrived n = s.arrived n := fun n hn => by
    simp [SideCar.arrived,SideCar.receive,hn.symm]
  constructor
  · intro n u hu
    by_cases hn : n = name
    · subst hn
      rw [hself]
      rcases hk with hcat | ⟨st,hst,hk⟩
      · have hsome := h.known n u hu
        simp [hcat] at hsome
      · have hu : s.streams.get n = some u := hu
        rw [hst,Option.some.injEq] at hu
        exact hu ▸ hk
    · rw [hne n hn]
      exact h.kept n u hu
  · exact h.known
  · intro n hcat hu
    by_cases hn : n = name
    · subst hn
      rcases hk with hnone | ⟨st,hst,_⟩
      · simp [hnone] at hcat
      · have hu : s.streams.get n = none := hu
        simp [hst] at hu
    · rw [hne n hn]
      exact h.absent n hcat hu
  · exact h.unopened
  · exact h.spared

theorem putReceive (hst : s.streams.get name = some st) {st' : ActiveStream}
    (hk : Kept (s.arrived name ++ [s.clock]) (s.done name) s.clock st') :
    Tracked cfg ((s.put name (st',none)).receive name) := by
  refine (h.putPlain hst (hk.fewer (List.subset_append_left _ _))).receive (.inr ⟨st',SideCar.get_put_self,?_⟩)
  simpa [SideCar.done_put_self,chunkRows] using hk

theorem consumeRow (hst : s.streams.get name = some st)
    (hactive : st.error = "" → st.isActive)
    (size : ℕ) (refusal : Option String) : Tracked cfg ((s.consumeRow name size refusal).receive name) := by
  have hk := h.kept name st hst
  unfold SideCar.consumeRow
  rw [hst]
  dsimp only
  split
  · next st' heq => exact h.putReceive hst (hk.consume hactive heq)
  · next st' err heq =>
    rw [SideCar.streamErr,hst]
    exact h.putReceive hst (hk.registerError (append_ne err (by decide)) _)

theorem processRecord (name : String) (size : ℕ) (reply : Reply) :
    Tracked cfg (s.processRecord cfg name size reply) := by
  obtain ⟨ht,hready,hfailed⟩ := h.openOrFail name reply.create
  unfold SideCar.processRecord
  split
  · next t heq =>
    rw [heq] at ht hready
    obtain ⟨st,hst,hactive⟩ := hready rfl
    exact ht.consumeRow hst hactive size reply.consume
  · next t heq =>
    rw [heq] at ht hfailed
    refine ht.receive ((hfailed rfl).imp id ?_)
    rintro ⟨st,hst,he⟩
    exact ⟨st,hst,(ht.kept name st hst).errored he _⟩

theorem registerErr (err : String) : Tracked cfg (s.registerErr err) := by
  unfold SideCar.registerErr
  split
  · exact h.congr rfl rfl rfl le_rfl
  · exact h

theorem processTraceError {message internalMessage : String}
    (hworded : name ≠ "" → message ≠ "" ∨ internalMessage ≠ "") :
    Tracked cfg (s.processTraceError name message internalMessage) := by
  unfold SideCar.processTraceError
  split
  · next hname =>
    split
    · exact h
    · next st hst => exact h.registered hst (preferred_ne (.inl (preferred_ne (hworded hname))))
  · split
    · exact h.congr rfl rfl rfl le_rfl
    · exact h.registerErr _

end

theorem solelyRunning {e : String × ActiveStream} (he : s.getSolelyRunningStream = some e) :
    s.streams.get e.1 = some e.2 ∧ e.2.status = .running := by
  unfold SideCar.getSolelyRunningStream at he
  split at he
  · next f hf =>
    cases he
    have hmem : e ∈ s.running := by simp [hf]
    obtain ⟨hmem,hstatus⟩ := List.mem_filter.mp hmem
    exact ⟨s.streams.get_of_mem hmem,by simpa using hstatus⟩
  · cases he

theorem blame (h : Tracked cfg s) (message : String) : Tracked cfg (s.blame message) := by
  unfold SideCar.blame
  split
  · exact h
  · next e he =>
    obtain ⟨hst,_⟩ := solelyRunning he
    exact h.putPlain hst ((h.kept _ _ hst).blamed message)

theorem processLog (h : Tracked cfg s) (level : LogLevel) (message : String) :
    Tracked cfg (s.processLog cfg level message) := by
  unfold SideCar.processLog
  split
  · split
    · exact (h.blame message).registerErr _
    · exact h.blame message
  · exact h

theorem processMessage (h : Tracked cfg s) {m : Message} {reply : Reply}
    (hworded : (Action.message m reply).Worded) :
    Tracked cfg (s.processMessage cfg reply m) := by
  obtain ⟨hanswer,htext⟩ := hworded
  cases m with
  | record d size => exact h.processRecord d.key size reply
  | state line row =>
    simp only [SideCar.processMessage]
    split
    · exact (h.processState row hanswer).congr rfl rfl rfl le_rfl
    · exact h
  | started d => exact (h.openOrFail d.key reply.create).1
  | finished d complete => exact h.closeStream complete hanswer
  | traceError d message internalMessage => exact h.processTraceError htext
  | log level message => exact h.processLog level message
  | ignored => exact h

theorem move {t : SideCar} {a : Action} (h : Tracked cfg s) (hworded : a.Worded) (hmove : Move cfg s a t) :
    Tracked cfg t := by
  cases hmove with
  | message m reply _ => exact (h.processMessage hworded).congr rfl rfl rfl (Nat.le_succ _)
  | cancel => exact h.congr rfl rfl rfl le_rfl
  | endOfInput overtime _ => exact h.congr rfl rfl rfl le_rfl
  | close name reply _ hst _ => exact h.closeOne hst _ true hworded
  | report _ _ => exact h.congr rfl rfl rfl le_rfl
  | crash => exact h.congr rfl rfl rfl le_rfl

theorem start : Tracked cfg SideCar.start where
  kept name st h := by cases h
  known name st h := by cases h
  absent name _ _ := rfl
  unopened name _ := rfl
  spared := List.Pairwise.nil

end Tracked

end Jitsu.ReadSideCar
