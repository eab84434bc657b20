import Jitsu.Rotor.Chain

namespace Jitsu.Rotor

variable {E : Type}

theorem startsWith_iff {s start : String} : startsWith s start = true ↔ start.toList <+: s.toList :=
  List.isPrefixOf_iff_prefix

theorem startsWith_disjoint {s a b : String} (ha : startsWith s a = true) (hb : startsWith s b = true) :
    a.toList <+: b.toList ∨ b.toList <+: a.toList :=
  List.prefix_or_prefix_of_prefix (startsWith_iff.mp ha) (startsWith_iff.mp hb)

theorem transformation_ne_destination {s : String} (h : startsWith s "builtin.transformation." = true) :
    startsWith s "builtin.destination." = false := by
  by_contra hd
  have := startsWith_disjoint h (by simpa using hd)
  revert this
  decide

theorem startsWith_of_no_dot {s start : String} (h : '.' ∉ s.toList) (hdot : '.' ∈ start.toList) :
    startsWith s start = false := by
  by_contra hs
  exact h ((startsWith_iff.mp (by simpa using hs)).subset hdot)

theorem lastComponent_no_dot (id : String) : '.' ∉ (lastComponent id).toList := by
  rw [lastComponent,String.toList_ofList,List.mem_reverse]
  intro h
  simpa using List.mem_takeWhile_imp h

def Udf.Throws (f : Udf E) (n : ℕ) (name : ErrorName) : Prop :=
  ∃ k event err, f.exec n k event = .threw err ∧ err.name = name

variable {events : List E} {err : UdfError}

theorem Udf.runEvents_error (f : Udf E) (position total n : ℕ) {k : ℕ} {entry : UdfEntry}
    (h : entry ∈ (f.runEvents position total n k events).1) (he : entry.error = some err) :
    '.' ∉ err.functionId.toList ∧ (err.name = .noRetry ∨ f.Throws n err.name) := by
  induction events generalizing k with
  | nil => cases h
  | cons event events ih =>
    rcases List.mem_cons.mp h with rfl | h
    · unfold Udf.call at he
      dsimp only at he
      split at he
      · split at he
        · cases he
          exact ⟨lastComponent_no_dot f.id,.inl rfl⟩
        · cases he
      · next thrown hexec =>
        cases he
        exact ⟨lastComponent_no_dot f.id,.inr ⟨k,event,thrown,hexec,rfl⟩⟩
    · exact ih h

variable {n : ℕ}

theorem runUdfs_error {total : ℕ} {fs : List (Udf E)} {position k : ℕ} {entry : UdfEntry}
    (h : entry ∈ (runUdfs total n fs position k events).1) (he : entry.error = some err) :
    '.' ∉ err.functionId.toList ∧ (err.name = .noRetry ∨ ∃ f ∈ fs, f.Throws n err.name) := by
  induction fs generalizing position k events with
  | nil => cases h
  | cons f fs ih =>
    have hhead (h : entry ∈ (f.runEvents position total n k events).1) :
        '.' ∉ err.functionId.toList ∧ (err.name = .noRetry ∨ ∃ g ∈ f :: fs, g.Throws n err.name) :=
      (f.runEvents_error position total n h he).imp_right
        (Or.imp_right (fun hf => ⟨f,List.mem_cons_self,hf⟩))
    unfold runUdfs at h
    dsimp only at h
    split at h
    · exact hhead h
    · rcases List.mem_append.mp h with h | h
      · exact hhead h
      · exact (ih h).imp_right (Or.imp_right (fun ⟨g,hg,hthrows⟩ => ⟨g,List.mem_cons_of_mem f hg,hthrows⟩))

theorem specialError_mem {log : List UdfEntry} (h : specialError log = some err) :
    ∃ entry ∈ log, entry.error = some err := by
  obtain ⟨entry,hmem,he⟩ := List.exists_of_findSome?_eq_some h
  exact ⟨entry,hmem,(Option.filter_eq_some_iff.mp he).1⟩

theorem Server.exec_threw {server : Server E} {event : E} {err : FuncError E}
    (h : server.exec n event = .threw err) : '.' ∉ err.functionId.toList ∧
      (err.functionId = "" ∨ err.name = .noRetry ∨ ∃ f ∈ server.functions, f.Throws n err.name) := by
  unfold Server.exec at h
  split at h
  · cases h
    refine ⟨?_,.inl rfl⟩
    change '.' ∉ "".toList
    decide
  · cases h
  · dsimp only at h
    split at h
    · next special hs =>
      cases h
      obtain ⟨entry,hmem,he⟩ := specialError_mem hs
      exact (runUdfs_error hmem he).imp_right .inr
    · cases h

variable {entry : Entry E}

theorem Func.runEvents_failure (f : Func E)
    (h : entry ∈ (f.runEvents n events).1) :
    entry.functionId = f.id ∧ ∀ e err, entry.failure = some (e,err) → ∃ k, f.exec k e = .threw err := by
  induction events generalizing n with
  | nil => cases h
  | cons event events ih =>
    rcases List.mem_cons.mp h with rfl | h
    · unfold Func.call
      split
      · exact ⟨rfl,nofun⟩
      · next err hexec =>
        refine ⟨rfl,fun e err' h => ?_⟩
        cases h
        exact ⟨n,hexec⟩
    · exact ih h

theorem runFunctions_failure {fs : List (Func E)}
    (h : entry ∈ (runFunctions fs n events).1) : ∃ f ∈ fs, entry.functionId = f.id ∧
      ∀ e err, entry.failure = some (e,err) → ∃ k, f.exec k e = .threw err := by
  induction fs generalizing n events with
  | nil => cases h
  | cons f fs ih =>
    unfold runFunctions at h
    dsimp only at h
    split at h
    · exact ⟨f,List.mem_cons_self,f.runEvents_failure h⟩
    · rcases List.mem_append.mp h with h | h
      · exact ⟨f,List.mem_cons_self,f.runEvents_failure h⟩
      · obtain ⟨g,hg,hentry⟩ := ih h
        exact ⟨g,List.mem_cons_of_mem f hg,hentry⟩

theorem checkError_first {pre post : List (Entry E)} {event : E} {err : FuncError E}
    (hpre : ∀ c ∈ pre, c.failure = none) (h : entry.failure = some (event,err)) :
    checkError (pre ++ entry :: post) = some ⟨err.name,err.message,err.retryPolicy,
      if err.functionId = "" then entry.functionId else err.functionId,some event⟩ := by
  have hnone (f : Entry E → E × FuncError E → Rejection E) :
      List.findSome? (fun el => el.failure.map (f el)) pre = none := by
    rw [List.findSome?_eq_none_iff]
    intro c hc
    rw [hpre c hc]
    rfl
  rw [checkError,List.findSome?_append,hnone,List.findSome?_cons,h]
  rfl

theorem exists_first_failure {log : List (Entry E)} {c : Entry E} (hc : c ∈ log) (hf : c.failure ≠ none) :
    ∃ pre first post, log = pre ++ first :: post ∧ first.failure ≠ none ∧ ∀ c ∈ pre, c.failure = none := by
  induction log with
  | nil => cases hc
  | cons entry log ih =>
    cases hfail : entry.failure with
    | some failure => exact ⟨[],entry,log,rfl,by simp [hfail],by simp⟩
    | none =>
      have hmem : c ∈ log := by
        rcases List.mem_cons.mp hc with rfl | hmem
        · exact absurd hfail hf
        · exact hmem
      obtain ⟨pre,first,post,rfl,hfirst,hpre⟩ := ih hmem
      refine ⟨entry :: pre,first,post,rfl,hfirst,fun c hc => ?_⟩
      rcases List.mem_cons.mp hc with rfl | hc
      · exact hfail
      · exact hpre c hc

def Chain.log (chain : Chain E) (fromJitsuClassic : E → Option E) (m : Message E) : List (Entry E) :=
  match m.event fromJitsuClassic with
  | none => []
  | some event => (chain.runChain event (functionFilter m.functionId)).1

def pendingEvent (cfg : RetryConfig) (retries : ℕ) (destinationId : String) (entry : Entry E) : Option E :=
  match entry.failure with
  | none => none
  | some (event,err) =>
    if entry.functionId = destinationId ∧ (retryTime cfg retries err.name err.retryPolicy).isSome then
      some event
    else none

def pendingEvents (cfg : RetryConfig) (retries : ℕ) (destinationId : String) (log : List (Entry E)) :
    Multiset E :=
  (log.filterMap (pendingEvent cfg retries destinationId) : List E)

def rejectedEvents : Handled E → Multiset E
  | .rejected ⟨_,_,_,_,some event⟩ => {event}
  | _ => 0

def retriedEvents (destinationId : String) : Option (Produced E) → Multiset E
  | some p => if p.topic = .retry ∧ p.functionId = destinationId then {p.httpPayload} else 0
  | none => 0

structure Remembered (cfg : RetryConfig) (fromJitsuClassic : E → Option E) (chain : Chain E) (m : Message E)
    (connectionId : String) : Prop where
  rejected : pendingEvents cfg m.retries chain.destination.id (chain.log fromJitsuClassic m) ≤
    rejectedEvents (rotorMessageHandler fromJitsuClassic (.ready chain) connectionId m)
  retried : pendingEvents cfg m.retries chain.destination.id (chain.log fromJitsuClassic m) ≤
    retriedEvents chain.destination.id (forConnection cfg fromJitsuClassic (.ready chain) m connectionId)

def Solitary (cfg : RetryConfig) (retries : ℕ) (destinationId : String) (log : List (Entry E)) : Prop :=
  ∀ pre c post, log = pre ++ c :: post → pendingEvent cfg retries destinationId c ≠ none →
    (∀ c' ∈ pre, c'.failure = none) ∧ ∀ c' ∈ post, pendingEvent cfg retries destinationId c' = none

section Remembering

variable {cfg : RetryConfig} {fromJitsuClassic : E → Option E} {chain : Chain E} {m : Message E}

theorem Chain.mem_functions {f : Func E} (h : f ∈ chain.functions) :
    (∃ b ∈ chain.transformations, f = b.toFunc) ∨
      (∃ server, chain.server = some server ∧ f = server.pipeline) ∨ f = chain.destination.toFunc := by
  simp only [Chain.functions,Chain.stages,List.mem_append,List.mem_map,Option.mem_toList,
    Option.map_eq_some_iff,List.mem_singleton] at h
  rcases h with (⟨b,hb,rfl⟩ | ⟨server,hserver,rfl⟩) | rfl
  · exact .inl ⟨b,hb,rfl⟩
  · exact .inr (.inl ⟨server,hserver,rfl⟩)
  · exact .inr (.inr rfl)

variable {entry : Entry E}

theorem Chain.log_failure (h : entry ∈ chain.log fromJitsuClassic m) :
    ∃ f ∈ chain.functions, entry.functionId = f.id ∧
      ∀ e err, entry.failure = some (e,err) → ∃ k, f.exec k e = .threw err := by
  unfold Chain.log at h
  split at h
  · cases h
  · obtain ⟨f,hf,hentry⟩ := runFunctions_failure h
    exact ⟨f,(List.mem_filter.mp hf).1,hentry⟩

variable {id : String}

theorem destination_ne_stage
    (h : startsWith id "builtin.transformation." = true ∨ id = pipelineId ∨ '.' ∉ id.toList) :
    id ≠ chain.destination.id := by
  rintro rfl
  have hd := chain.destination.named
  rcases h with h | h | h
  · rw [transformation_ne_destination h] at hd
    cases hd
  · rw [h] at hd
    revert hd
    decide
  · rw [startsWith_of_no_dot h (by decide)] at hd
    cases hd

variable {event : E}

theorem Chain.log_destination {err : FuncError E}
    (h : entry ∈ chain.log fromJitsuClassic m) (hf : entry.failure = some (event,err)) :
    (if err.functionId = "" then entry.functionId else err.functionId) = chain.destination.id ↔
      entry.functionId = chain.destination.id := by
  obtain ⟨f,hmem,hid,hexec⟩ := Chain.log_failure h
  obtain ⟨k,hk⟩ := hexec event err hf
  rcases Chain.mem_functions hmem with ⟨b,-,rfl⟩ | ⟨server,-,rfl⟩ | rfl
  · rw [if_pos (b.plain k event err hk)]
  · have hentry : entry.functionId ≠ chain.destination.id := destination_ne_stage (.inr (.inl hid))
    refine iff_of_false (fun hr => ?_) hentry
    split at hr
    · exact hentry hr
    · exact destination_ne_stage (.inr (.inr (Server.exec_threw hk).1)) hr
  · rw [if_pos (chain.destination.plain k event err hk)]

variable {retries : ℕ}

theorem pendingEvent_eq_some :
    pendingEvent cfg retries id entry = some event ↔ ∃ err, entry.failure = some (event,err) ∧
      entry.functionId = id ∧ (retryTime cfg retries err.name err.retryPolicy).isSome := by
  unfold pendingEvent
  cases hf : entry.failure with
  | none => simp
  | some failure =>
    obtain ⟨e,err⟩ := failure
    simp only [Option.ite_none_right_eq_some,Option.some.injEq,Prod.mk.injEq]
    constructor
    · rintro ⟨⟨hid,ht⟩,rfl⟩
      exact ⟨err,⟨rfl,rfl⟩,hid,ht⟩
    · rintro ⟨_,⟨rfl,rfl⟩,hid,ht⟩
      exact ⟨⟨hid,ht⟩,rfl⟩

theorem handler_rejects {connectionId : String} {r : Rejection E}
    (h : checkError (chain.log fromJitsuClassic m) = some r) :
    rotorMessageHandler fromJitsuClassic (.ready chain) connectionId m = .rejected r := by
  unfold Chain.log at h
  unfold rotorMessageHandler
  cases hm : m.event fromJitsuClassic with
  | none =>
    rw [hm] at h
    cases h
  | some event =>
    rw [hm] at h
    dsimp only at h ⊢
    rw [h]

theorem pendingEvents_split (pre post : List (Entry E)) (c : Entry E) :
    pendingEvents cfg retries id (pre ++ c :: post) = pendingEvents cfg retries id pre +
      ((pendingEvent cfg retries id c).toList : Multiset E) + pendingEvents cfg retries id post := by
  unfold pendingEvents
  rw [List.filterMap_append,List.filterMap_cons]
  cases pendingEvent cfg retries id c with
  | none => simp
  | some event =>
    rw [add_assoc]
    rfl

theorem pendingEvents_eq_zero {log : List (Entry E)}
    (h : ∀ c ∈ log, pendingEvent cfg retries id c = none) : pendingEvents cfg retries id log = 0 := by
  unfold pendingEvents
  rw [List.filterMap_eq_nil_iff.mpr h]
  rfl

theorem card_retriedEvents (id : String) (p : Option (Produced E)) : (retriedEvents id p).card ≤ 1 := by
  unfold retriedEvents
  split
  · split <;> simp
  · simp

theorem Solitary.pending {log pre post : List (Entry E)} {c : Entry E}
    (h : Solitary cfg retries id log) (hlog : log = pre ++ c :: post)
    (hc : pendingEvent cfg retries id c = some event) : pendingEvents cfg retries id log = {event} := by
  obtain ⟨hpre,hpost⟩ := h pre c post hlog (by simp [hc])
  have hnone : ∀ c' ∈ pre, pendingEvent cfg retries id c' = none := by
    intro c' hc'
    rw [pendingEvent,hpre c' hc']
  rw [hlog,pendingEvents_split,pendingEvents_eq_zero hnone,pendingEvents_eq_zero hpost,hc]
  simp

theorem retriedEvents_first {pre post : List (Entry E)} {first : Entry E} {err : FuncError E}
    (connectionId : String) (hlog : chain.log fromJitsuClassic m = pre ++ first :: post)
    (hpre : ∀ c ∈ pre, c.failure = none) (hf : first.failure = some (event,err)) :
    retriedEvents chain.destination.id (forConnection cfg fromJitsuClassic (.ready chain) m connectionId) =
      ((pendingEvent cfg m.retries chain.destination.id first).toList : Multiset E) := by
  have hmem : first ∈ chain.log fromJitsuClassic m := by simp [hlog]
  have hr : checkError (chain.log fromJitsuClassic m) = _ := hlog ▸ checkError_first hpre hf
  have hid := Chain.log_destination hmem hf
  rw [forConnection,handler_rejects hr,pendingEvent,hf]
  dsimp only [retriedEvents,requeue]
  by_cases ht : (retryTime cfg m.retries err.name err.retryPolicy).isSome
  · by_cases hd : first.functionId = chain.destination.id
    · rw [if_pos ⟨if_pos ht,hid.mpr hd⟩,if_pos ⟨hd,ht⟩]
      rfl
    · rw [if_neg (fun h => hd (hid.mp h.2)),if_neg (fun h => hd h.1)]
      rfl
  · rw [if_neg (fun h => by rw [if_neg ht] at h; cases h.1),if_neg (fun h => ht h.2)]
    rfl

end Remembering

theorem failed_delivery_remembered_iff (cfg : RetryConfig) (fromJitsuClassic : E → Option E) (chain : Chain E)
    (m : Message E) (connectionId : String) :
    Remembered cfg fromJitsuClassic chain m connectionId ↔
      Solitary cfg m.retries chain.destination.id (chain.log fromJitsuClassic m) := by
  constructor
  · intro h pre c post hlog hc
    obtain ⟨event,hevent⟩ := Option.ne_none_iff_exists'.mp hc
    have hle := h.retried
    have hcard := (Multiset.card_le_card hle).trans (card_retriedEvents _ _)
    rw [hlog,pendingEvents_split,hevent] at hle hcard
    simp only [Multiset.card_add,Option.toList_some,Multiset.coe_singleton,
      Multiset.card_singleton] at hle hcard
    have hpost : pendingEvents cfg m.retries chain.destination.id post = 0 := by
      rw [← Multiset.card_eq_zero]
      omega
    refine ⟨?_,List.filterMap_eq_nil_iff.mp ((Multiset.coe_eq_zero _).mp hpost)⟩
    by_contra hpre
    push Not at hpre
    obtain ⟨c',hc',hfail⟩ := hpre
    obtain ⟨before,first,after,rfl,hfirst,hclean⟩ := exists_first_failure hc' hfail
    obtain ⟨⟨e,err⟩,hf⟩ := Option.ne_none_iff_exists'.mp hfirst
    rw [List.append_assoc,List.cons_append] at hlog
    rw [retriedEvents_first connectionId hlog hclean hf] at hle
    have hsome : pendingEvent cfg m.retries chain.destination.id first ≠ none := by
      intro hnone
      rw [hnone] at hle
      have := Multiset.card_le_card hle
      simp at this
    obtain ⟨e',he'⟩ := Option.ne_none_iff_exists'.mp hsome
    rw [pendingEvents_split,he'] at hcard
    simp only [Multiset.card_add,Option.toList_some,Multiset.coe_singleton,Multiset.card_singleton] at hcard
    omega
  · intro h
    by_cases hp : ∃ c ∈ chain.log fromJitsuClassic m, pendingEvent cfg m.retries chain.destination.id c ≠ none
    · obtain ⟨c,hc,hpending⟩ := hp
      obtain ⟨event,hevent⟩ := Option.ne_none_iff_exists'.mp hpending
      obtain ⟨pre,post,hlog⟩ := List.append_of_mem hc
      obtain ⟨err,hf,-⟩ := pendingEvent_eq_some.mp hevent
      have hpre := (h pre c post hlog hpending).1
      have hr : checkError (chain.log fromJitsuClassic m) = _ := hlog ▸ checkError_first hpre hf
      constructor
      · rw [h.pending hlog hevent,handler_rejects hr]
        exact le_rfl
      · rw [h.pending hlog hevent,retriedEvents_first connectionId hlog hpre hf,hevent]
        exact le_rfl
    · push Not at hp
      have hzero := pendingEvents_eq_zero hp
      exact ⟨hzero ▸ Multiset.zero_le _,hzero ▸ Multiset.zero_le _⟩

def retryConfig : RetryConfig := ⟨3,10,1440⟩

def thrown (name : ErrorName) : FuncError ℕ := ⟨name,"unavailable",none,"",none⟩

def recognition (exec : ℕ → Option (List ℕ)) : Builtin ℕ "builtin.transformation." where
  id := "builtin.transformation.user-recognition"
  exec _ event := match exec event with
    | some events => .returned (.many events)
    | none => .threw (thrown (.other "Error"))
  named := by decide
  plain n event err h := by
    split at h <;> cases h
    rfl

def bulker (fails : ℕ → Option ErrorName) : Builtin ℕ "builtin.destination." where
  id := "builtin.destination.bulker"
  exec _ event := match fails event with
    | none => .returned .nothing
    | some name => .threw (thrown name)
  named := by decide
  plain n event err h := by
    split at h <;> cases h
    rfl

def pageView : Message ℕ := ⟨"m","incoming",false,0,0,"",["con"]⟩

def fanned : Chain ℕ := ⟨[recognition (fun e => some [e,e + 1])],none,bulker (fun _ => some .retry)⟩

def refused : Chain ℕ := ⟨[recognition (fun e => some [e,e + 1])],none,
  bulker (fun e => some (if e = 0 then .noRetry else .retry))⟩

def unrecognized : Chain ℕ := ⟨[recognition (fun _ => none)],none,bulker (fun _ => some .retry)⟩

theorem failed_deliveries_forgotten :
    (pendingEvents retryConfig 0 fanned.destination.id (fanned.log some pageView) = {0,1} ∧
      (onMessage retryConfig some (fun _ => .ready fanned) pageView).map
        (fun p => (p.topic,p.httpPayload)) = [(.retry,0)] ∧
      ¬ Remembered retryConfig some fanned pageView "con") ∧
    (pendingEvents retryConfig 0 refused.destination.id (refused.log some pageView) = {1} ∧
      (onMessage retryConfig some (fun _ => .ready refused) pageView).map
        (fun p => (p.topic,p.httpPayload)) = [(.deadLetter,0)] ∧
      ¬ Remembered retryConfig some refused pageView "con") ∧
    pendingEvents retryConfig 0 unrecognized.destination.id (unrecognized.log some pageView) = {0} ∧
      (onMessage retryConfig some (fun _ => .ready unrecognized) pageView).map
        (fun p => (p.topic,p.httpPayload)) = [(.deadLetter,0)] ∧
      ¬ Remembered retryConfig some unrecognized pageView "con" := by
  refine ⟨⟨?_,?_,fun h => absurd h.retried ?_⟩,⟨?_,?_,fun h => absurd h.retried ?_⟩,
    ?_,?_,fun h => absurd h.retried ?_⟩ <;> decide +kernel

end Jitsu.Rotor
