import Jitsu.Lib.Transition
import Jitsu.Rotor.Traced

namespace Jitsu.Rotor

open Jitsu.Transition

variable {E : Type}

structure Outline where
  transformations : List String
  udfs : Bool
  destination : String
  deriving DecidableEq, Repr

def Chain.outline (chain : Chain E) : Outline :=
  ⟨chain.transformations.map (fun t => t.id),chain.server.isSome,chain.destination.id⟩

namespace Outline

variable (o : Outline)

def builtins : List Stage := (List.range o.transformations.length).map .transformation

def pipeline : List Stage := if o.udfs then [.pipeline] else []

def stages : List Stage := o.builtins ++ o.pipeline ++ [.destination]

def done : FuncChainFilter → List Stage
  | .all => []
  | .udfAndDestination => o.builtins
  | .destinationOnly => o.builtins ++ o.pipeline

variable {stage : Stage}

theorem mem_builtins :
    stage ∈ o.builtins ↔ ∃ i < o.transformations.length, stage = .transformation i := by
  simp [builtins,eq_comm]

theorem mem_pipeline : stage ∈ o.pipeline ↔ o.udfs = true ∧ stage = .pipeline := by
  unfold pipeline
  split <;> simp [*]

theorem nodup_stages : o.stages.Nodup := by
  have hbuiltins : o.builtins.Nodup :=
    List.nodup_range.map (fun _ _ h => Stage.transformation.inj h)
  have hpipeline : o.pipeline.Nodup := by
    unfold pipeline
    split <;> simp
  unfold stages
  rw [List.nodup_append,List.nodup_append]
  refine ⟨⟨hbuiltins,hpipeline,fun a ha b hb => ?_⟩,List.nodup_singleton _,fun a ha b hb => ?_⟩
  · obtain ⟨i,-,rfl⟩ := o.mem_builtins.mp ha
    simp [(o.mem_pipeline.mp hb).2]
  · rw [List.mem_singleton.mp hb]
    rcases List.mem_append.mp ha with ha | ha
    · obtain ⟨i,-,rfl⟩ := o.mem_builtins.mp ha
      simp
    · simp [(o.mem_pipeline.mp ha).2]

theorem classic_not_mem_stages : Stage.classic ∉ o.stages := by
  unfold stages builtins pipeline
  split <;> simp

theorem nodup_converted (classic : Bool) : ((if classic then [Stage.classic] else []) ++ o.stages).Nodup := by
  cases classic with
  | false => exact o.nodup_stages
  | true => exact List.nodup_cons.mpr ⟨o.classic_not_mem_stages,o.nodup_stages⟩

theorem split_unique {pre pre' post post' : List Stage} (h : o.stages = pre ++ stage :: post)
    (h' : o.stages = pre' ++ stage :: post') : pre = pre' := by
  have hn := o.nodup_stages
  rw [h,List.nodup_append] at hn
  obtain ⟨-,hpost,hpre⟩ := hn
  have hpre : stage ∉ pre := fun hm => hpre stage hm stage List.mem_cons_self rfl
  exact ((List.append_cons_inj_of_notMem hpre (List.nodup_cons.mp hpost).1).mp (h.symm.trans h')).1

theorem done_prefix (runFuncs : FuncChainFilter) : o.done runFuncs <+: o.stages := by
  cases runFuncs with
  | all => exact List.nil_prefix
  | udfAndDestination => exact ⟨o.pipeline ++ [.destination],(List.append_assoc ..).symm⟩
  | destinationOnly => exact ⟨[.destination],rfl⟩

theorem done_todo (runFuncs : FuncChainFilter) :
    o.done runFuncs ++ o.stages.filter (fun stage => stage ∉ o.done runFuncs) = o.stages := by
  obtain ⟨todo,htodo⟩ := o.done_prefix runFuncs
  have hn := o.nodup_stages
  rw [← htodo,List.nodup_append] at hn
  have hdone : (o.done runFuncs).filter (fun stage => stage ∉ o.done runFuncs) = [] := by
    simp
  have hrest : todo.filter (fun stage => stage ∉ o.done runFuncs) = todo := by
    rw [List.filter_eq_self]
    intro stage hstage
    simpa using fun hm => hn.2.2 stage hm stage hstage rfl
  rw [← htodo,List.filter_append,hdone,hrest,List.nil_append]

end Outline

section Placing

variable {chain : Chain E} {id : String}

theorem functionFilter_transformation (h : startsWith id "builtin.transformation." = true) :
    functionFilter id = .all := by
  have hudf : startsWith id "udf." = false := by
    by_contra hu
    have := startsWith_disjoint h (by simpa using hu)
    revert this
    decide
  simp [functionFilter,hudf,transformation_ne_destination h]

theorem functionFilter_destination (h : startsWith id "builtin.destination." = true) :
    functionFilter id = .destinationOnly := by
  have hudf : startsWith id "udf." = false := by
    by_contra hu
    have := startsWith_disjoint h (by simpa using hu)
    revert this
    decide
  simp [functionFilter,hudf,h]

theorem functionFilter_udf (h : '.' ∉ id.toList) : functionFilter id = .all := by
  simp [functionFilter,startsWith_of_no_dot h (show '.' ∈ "udf.".toList by decide),
    startsWith_of_no_dot h (show '.' ∈ "builtin.destination.".toList by decide)]

variable {p : Placed E}

theorem Chain.mem_before (h : p ∈ chain.before) :
    (∃ i t, chain.transformations[i]? = some t ∧ p = ⟨.transformation i,t.toFunc⟩) ∨
      ∃ server, chain.server = some server ∧ p = ⟨.pipeline,server.pipeline⟩ := by
  rcases List.mem_append.mp h with h | h
  · obtain ⟨i,hi,rfl⟩ := List.mem_mapIdx.mp h
    exact .inl ⟨i,_,List.getElem?_eq_getElem hi,rfl⟩
  · rw [Option.mem_toList,Option.map_eq_some_iff] at h
    obtain ⟨server,hserver,rfl⟩ := h
    exact .inr ⟨server,hserver,rfl⟩

theorem Chain.placed_stages (chain : Chain E) : chain.placed.map Placed.stage = chain.outline.stages := by
  have hbuiltins : (chain.transformations.mapIdx (fun i t => (⟨.transformation i,t.toFunc⟩ : Placed E))).map
      Placed.stage = chain.outline.builtins := by
    rw [List.mapIdx_eq_zipIdx_map,List.map_map,Outline.builtins]
    change chain.transformations.zipIdx.map (Stage.transformation ∘ Prod.snd) = _
    rw [← List.map_map,List.zipIdx_map_snd,← List.range_eq_range']
    simp [Chain.outline]
  have hpipeline : (chain.server.map (fun server => (⟨.pipeline,server.pipeline⟩ : Placed E))).toList.map
      Placed.stage = chain.outline.pipeline := by
    unfold Chain.outline Outline.pipeline
    cases chain.server <;> rfl
  rw [Chain.placed,Chain.before,List.map_append,List.map_append,hbuiltins,hpipeline]
  rfl

theorem Chain.runs_iff (h : p ∈ chain.placed) (runFuncs : FuncChainFilter) :
    runFuncs.runs p.func.id = true ↔ p.stage ∉ chain.outline.done runFuncs := by
  rcases List.mem_append.mp h with h | h
  · rcases Chain.mem_before h with ⟨i,t,ht,rfl⟩ | ⟨server,hserver,rfl⟩
    · have hi : i < chain.transformations.length := (List.getElem?_eq_some_iff.mp ht).1
      have hmem : Stage.transformation i ∈ chain.outline.builtins :=
        Outline.mem_builtins _ |>.mpr ⟨i,by simpa [Chain.outline] using hi,rfl⟩
      have hd := transformation_ne_destination t.named
      have hp : t.id ≠ pipelineId := by
        intro hid
        have := t.named
        rw [hid] at this
        revert this
        decide
      cases runFuncs <;> simp [FuncChainFilter.runs,Outline.done,hmem,hd,hp]
    · have hb : Stage.pipeline ∉ chain.outline.builtins := by simp [Outline.mem_builtins]
      have hmem : Stage.pipeline ∈ chain.outline.pipeline :=
        Outline.mem_pipeline _ |>.mpr ⟨by simp [Chain.outline,hserver],rfl⟩
      have hd : startsWith pipelineId "builtin.destination." = false := by decide
      cases runFuncs <;> simp [FuncChainFilter.runs,Outline.done,hb,hmem,Server.pipeline,hd]
  · rw [List.mem_singleton.mp h]
    have hb : Stage.destination ∉ chain.outline.builtins := by simp [Outline.mem_builtins]
    have hp : Stage.destination ∉ chain.outline.pipeline := by simp [Outline.mem_pipeline]
    cases runFuncs <;> simp [FuncChainFilter.runs,Outline.done,hb,hp,chain.destination.named]

theorem Chain.done_placed (chain : Chain E) (runFuncs : FuncChainFilter) :
    chain.outline.done runFuncs ++ (chain.placed.filter (fun p => runFuncs.runs p.func.id)).map Placed.stage =
      chain.outline.stages := by
  have hfilter : chain.placed.filter (fun p => runFuncs.runs p.func.id) =
      chain.placed.filter ((fun stage => decide (stage ∉ chain.outline.done runFuncs)) ∘ Placed.stage) :=
    List.filter_congr (fun p hp => Bool.eq_iff_iff.mpr (by simpa using Chain.runs_iff hp runFuncs))
  rw [hfilter,← List.filter_map,chain.placed_stages,Outline.done_todo]

structure Chain.Steady (chain : Chain E) : Prop where
  builtins : ∀ t ∈ chain.transformations.tail, ∀ n event err, t.exec n event = .threw err →
    err.name.retryable = false
  udfs : chain.transformations ≠ [] → ∀ server, chain.server = some server → ∀ f ∈ server.functions,
    ∀ n k event err, f.exec n k event = .threw err → err.name.retryable = false

theorem Chain.Steady.pipeline (h : chain.Steady) {server : Server E} (hserver : chain.server = some server)
    {n : ℕ} {event : E} {err : FuncError E} (hexec : server.exec n event = .threw err)
    (hretry : err.name.retryable = true) : err.functionId = "" ∨ chain.transformations = [] := by
  rcases (Server.exec_threw hexec).2 with hid | hname | ⟨f,hf,k,e,thrown,hthrew,hname⟩
  · exact .inl hid
  · rw [hname] at hretry
    cases hretry
  · refine .inr (by_contra fun hne => ?_)
    rw [← hname,h.udfs hne server hserver f hf n k e thrown hthrew] at hretry
    cases hretry

theorem Chain.Steady.resumes (h : chain.Steady) {runFuncs : FuncChainFilter} {applied rest : List (Placed E)}
    (hsplit : chain.placed.filter (fun p => runFuncs.runs p.func.id) = applied ++ p :: rest)
    {k : ℕ} {event : E} {err : FuncError E} (hexec : p.func.exec k event = .threw err)
    (hretry : err.name.retryable = true) :
    chain.outline.done (functionFilter (if err.functionId = "" then p.func.id else err.functionId)) =
      chain.outline.done runFuncs ++ applied.map Placed.stage := by
  have hstages := chain.done_placed runFuncs
  rw [hsplit,List.map_append,List.map_cons,← List.append_assoc] at hstages
  have hp : p ∈ chain.placed := by
    have : p ∈ chain.placed.filter (fun p => runFuncs.runs p.func.id) := by simp [hsplit]
    exact (List.mem_filter.mp this).1
  suffices hex : ∃ post, chain.outline.stages =
      chain.outline.done (functionFilter (if err.functionId = "" then p.func.id else err.functionId)) ++
        p.stage :: post by
    obtain ⟨post,hpost⟩ := hex
    exact Outline.split_unique _ hpost hstages.symm
  rcases List.mem_append.mp hp with hp | hp
  · rcases Chain.mem_before hp with ⟨i,t,ht,rfl⟩ | ⟨server,hserver,rfl⟩
    · have hi : i = 0 := by
        by_contra hne
        have htail : t ∈ chain.transformations.tail := by
          refine List.mem_of_getElem? (i := i - 1) ?_
          rw [List.getElem?_tail,Nat.sub_add_cancel (Nat.pos_of_ne_zero hne),ht]
        rw [h.builtins t htail k event err hexec] at hretry
        cases hretry
      subst hi
      rw [if_pos (t.plain k event err hexec),functionFilter_transformation t.named]
      have hlen : chain.transformations.length = (chain.transformations.length - 1) + 1 :=
        (Nat.sub_add_cancel (List.getElem?_eq_some_iff.mp ht).1).symm
      unfold Outline.stages Outline.builtins Chain.outline
      rw [List.length_map,hlen,List.range_succ_eq_map]
      exact ⟨_,rfl⟩
    · have hpipeline : chain.outline.pipeline = [.pipeline] := by simp [Outline.pipeline,Chain.outline,hserver]
      have hstages : chain.outline.stages = chain.outline.builtins ++ .pipeline :: [.destination] := by
        rw [Outline.stages,hpipeline,List.append_assoc]
        rfl
      by_cases hid : err.functionId = ""
      · have hfilter : functionFilter server.pipeline.id = .udfAndDestination := by
          change functionFilter pipelineId = _
          decide
        rw [if_pos hid,hfilter]
        exact ⟨[.destination],hstages⟩
      · have hnone := (h.pipeline hserver hexec hretry).resolve_left hid
        rw [if_neg hid,functionFilter_udf (Server.exec_threw hexec).1,hstages]
        exact ⟨[.destination],by simp [Outline.done,Outline.builtins,Chain.outline,hnone]⟩
  · rw [List.mem_singleton.mp hp] at hexec ⊢
    rw [if_pos (chain.destination.plain k event err hexec),functionFilter_destination chain.destination.named]
    exact ⟨[],rfl⟩

end Placing

structure Delivery (E : Type) where
  message : Message E
  history : List Stage
  settled : Bool
  deriving DecidableEq, Repr

def Produced.returned (p : Produced E) (m : Message E) : Message E :=
  { m with
    key := p.key
    topic := p.originalTopic
    httpPayload := p.httpPayload
    retries := p.retries + 1
    functionId := p.functionId
    connectionIds := [p.connectionId] }

namespace Delivery

def filter (d : Delivery E) : FuncChainFilter := functionFilter d.message.functionId

def entering (d : Delivery E) : List Stage :=
  if d.message.classic && d.message.retries == 0 then d.history ++ [.classic] else d.history

def carried (fromJitsuClassic : E → Option E) (d : Delivery E) : Connection E → List Stage
  | .ready chain => match d.message.event fromJitsuClassic with
    | none => d.history
    | some event => match checkError (chain.tracedChain ⟨event,d.entering⟩ d.filter).1 with
      | some ⟨_,_,_,_,some x⟩ => x.history
      | _ => d.history
  | _ => d.history

def attempt (cfg : RetryConfig) (fromJitsuClassic : E → Option E) (connectionId : String) (d : Delivery E)
    (connection : Connection E) : Delivery E :=
  match forConnection cfg fromJitsuClassic connection d.message connectionId with
  | none => { d with settled := true }
  | some p => match p.topic with
    | .deadLetter => { d with settled := true }
    | .retry => ⟨p.returned d.message,d.carried fromJitsuClassic connection,false⟩

end Delivery

def Connection.Outlined (o : Outline) : Connection E → Bool
  | .ready chain => chain.outline = o
  | _ => true

def Connection.Steady : Connection E → Prop
  | .ready chain => chain.Steady
  | _ => True

def deliveries (cfg : RetryConfig) (fromJitsuClassic : E → Option E) (connectionId : String) (o : Outline) :
    System (Delivery E) (Connection E) where
  initial d := d.message.retries = 0 ∧ d.message.functionId = "" ∧ d.history = [] ∧ d.settled = false
  step d connection :=
    if d.settled = false ∧ connection.Outlined o then
      some (d.attempt cfg fromJitsuClassic connectionId connection)
    else none

structure AppliedOnce (fromJitsuClassic : E → Option E) (o : Outline) (d : Delivery E) : Prop where
  resumed : ∀ chain : Chain E, chain.outline = o → ∀ p ∈ chain.placed,
    d.filter.runs p.func.id = true ↔ p.stage ∉ d.history
  converted : d.message.classic = true → (d.message.retries = 0 ↔ .classic ∉ d.history)
  reached : ∀ chain : Chain E, chain.outline = o → ∀ event, d.message.event fromJitsuClassic = some event →
    ∀ x failed, (x,failed) ∈ chain.lineages ⟨event,d.entering⟩ d.filter →
      x.history.count .classic = (if d.message.classic then 1 else 0) ∧
      (∀ stage, x.history.count stage ≤ 1) ∧
      ∀ p ∈ chain.before, x.history.count p.stage = 1 ∨ p.stage ∈ failed

section Retrying

variable {cfg : RetryConfig} {fromJitsuClassic : E → Option E} {connectionId : String} {o : Outline}
  {d : Delivery E} {connection : Connection E}

theorem retryTime_retryable {retries : ℕ} {name : ErrorName} {override : Option PolicyOverride}
    (h : (retryTime cfg retries name override).isSome) : name.retryable = true := by
  by_contra hname
  have hpolicy : cfg.getRetryPolicy name override = RetryConfig.noRetryPolicy := by
    simp [RetryConfig.getRetryPolicy,hname]
  simp [retryTime,hpolicy,RetryConfig.retryBackOffTime,RetryConfig.noRetryPolicy] at h

theorem handler_rejected {m : Message E} {r : Rejection E}
    (h : rotorMessageHandler fromJitsuClassic connection connectionId m = .rejected r)
    (hr : r.name.retryable = true) : ∃ chain event, connection = .ready chain ∧
      m.event fromJitsuClassic = some event ∧
      checkError (chain.runChain event (functionFilter m.functionId)).1 = some r := by
  have hplain {message : String} (hrej : Handled.rejected (plainError message) = .rejected r) : False := by
    cases hrej
    cases hr
  unfold rotorMessageHandler at h
  cases connection with
  | unknown => exact (hplain h).elim
  | undeployed =>
    dsimp only at h
    split at h
    · exact (hplain h).elim
    · cases h
  | unbuildable message =>
    dsimp only at h
    split at h <;> exact (hplain h).elim
  | ready chain =>
    dsimp only at h
    cases hevent : m.event fromJitsuClassic with
    | none =>
      rw [hevent] at h
      exact (hplain h).elim
    | some event =>
      rw [hevent] at h
      dsimp only at h
      split at h
      · cases h
      · next error herror =>
        cases h
        exact ⟨chain,event,rfl,rfl,herror⟩

theorem checkError_event {log : List (Entry E)} {r : Rejection E} (h : checkError log = some r) :
    ∃ event, r.event = some event := by
  obtain ⟨c,-,hc⟩ := List.exists_of_findSome?_eq_some h
  obtain ⟨failure,-,rfl⟩ := Option.map_eq_some_iff.mp hc
  exact ⟨failure.1,rfl⟩

structure Retried (fromJitsuClassic : E → Option E) (d d' : Delivery E) (connection : Connection E)
    (chain : Chain E) (x : Traced E) (r : Rejection (Traced E)) : Prop where
  ready : connection = .ready chain
  thrown : ∃ event, d.message.event fromJitsuClassic = some event ∧
    checkError (chain.tracedChain ⟨event,d.entering⟩ d.filter).1 = some r
  payload : r.event = some x
  retryable : r.name.retryable = true
  classic : d'.message.classic = d.message.classic
  retries : d'.message.retries = d.message.retries + 1
  functionId : d'.message.functionId = r.functionId
  httpPayload : d'.message.httpPayload = x.event
  history : d'.history = x.history

theorem attempt_retried
    (h : (d.attempt cfg fromJitsuClassic connectionId connection).settled = false) :
    ∃ chain x r, Retried fromJitsuClassic d (d.attempt cfg fromJitsuClassic connectionId connection)
      connection chain x r := by
  unfold Delivery.attempt at h ⊢
  cases hp : forConnection cfg fromJitsuClassic connection d.message connectionId with
  | none =>
    rw [hp] at h
    cases h
  | some p =>
    rw [hp] at h
    dsimp only at h ⊢
    cases htopic : p.topic with
    | deadLetter =>
      rw [htopic] at h
      cases h
    | retry =>
      unfold forConnection at hp
      split at hp
      · cases hp
      · next r hr =>
        cases hp
        have hsome : (retryTime cfg d.message.retries r.name r.retryPolicy).isSome := by
          by_contra hnone
          dsimp only [requeue] at htopic
          rw [if_neg hnone] at htopic
          cases htopic
        have hretry := retryTime_retryable hsome
        obtain ⟨chain,event,rfl,hevent,herror⟩ := handler_rejected hr hretry
        rw [← chain.tracedChain_erase ⟨event,d.entering⟩,checkError_erase,Option.map_eq_some_iff] at herror
        obtain ⟨r,herror,rfl⟩ := herror
        obtain ⟨x,hx⟩ := checkError_event herror
        have hcarried : d.carried fromJitsuClassic (.ready chain) = x.history := by
          obtain ⟨name,message,retryPolicy,functionId,_⟩ := r
          cases hx
          unfold Delivery.carried Delivery.filter
          rw [hevent]
          dsimp only
          rw [herror]
        refine ⟨chain,x,r,rfl,⟨event,hevent,herror⟩,hx,hretry,rfl,rfl,rfl,?_,hcarried⟩
        change (r.event.map Traced.event).getD _ = _
        rw [hx]
        rfl

structure Resumed (o : Outline) (d : Delivery E) : Prop where
  history : d.history =
    (if d.message.classic && d.message.retries != 0 then [.classic] else []) ++ o.done d.filter
  first : d.message.retries = 0 → d.message.functionId = ""

namespace Resumed

variable (h : Resumed o d)

include h

theorem entering :
    d.entering = (if d.message.classic then [.classic] else []) ++ o.done d.filter := by
  unfold Delivery.entering
  rw [h.history]
  by_cases hr : d.message.retries = 0
  · have hfilter : d.filter = .all := by
      unfold Delivery.filter
      rw [h.first hr]
      decide
    cases hc : d.message.classic <;> simp [hr,hfilter,Outline.done]
  · cases hc : d.message.classic <;> simp [hr]

theorem step (hc : connection.Steady) (ho : connection.Outlined o = true)
    (hs : (d.attempt cfg fromJitsuClassic connectionId connection).settled = false) :
    Resumed o (d.attempt cfg fromJitsuClassic connectionId connection) := by
  obtain ⟨chain,x,r,hr⟩ := attempt_retried hs
  generalize d.attempt cfg fromJitsuClassic connectionId connection = d' at hr ⊢
  obtain rfl := hr.ready
  obtain rfl : chain.outline = o := of_decide_eq_true ho
  obtain ⟨event,-,herror⟩ := hr.thrown
  obtain ⟨applied,p,rest,x',k,err,hsplit,hexec,hx,rfl⟩ :=
    runFunctions_first (fun y hy => by rw [List.mem_singleton.mp hy]) herror
  obtain rfl : x' = x := Option.some.inj hr.payload
  have hdone := Chain.Steady.resumes hc hsplit hexec hr.retryable
  have hfilter : d'.filter =
      functionFilter (if err.functionId = "" then p.func.id else err.functionId) :=
    congrArg functionFilter hr.functionId
  refine ⟨?_,fun h0 => ?_⟩
  · rw [hr.history,hx,h.entering,hfilter,hdone,hr.classic,hr.retries,List.append_assoc]
    simp
  · rw [hr.retries] at h0
    cases h0

theorem arrived {chain : Chain E} (ho : chain.outline = o) {event : E} {x : Traced E}
    (hx : x ∈ chain.arrivals ⟨event,d.entering⟩ d.filter) : x.history.Nodup ∧ d.entering ⊆ x.history ∧
      (.classic ∈ x.history → d.message.classic = true) := by
  subst ho
  obtain ⟨y,hy,applied,hsub,hhistory⟩ := runFunctions_history hx
  rw [List.mem_singleton.mp hy] at hhistory
  have hplaced : applied.Sublist
      ((chain.placed.filter (fun p => d.filter.runs p.func.id)).map Placed.stage) := by
    refine hsub.trans (List.Sublist.map _ ?_)
    exact List.Sublist.filter _ (List.sublist_append_left ..)
  have hall : x.history.Sublist
      ((if d.message.classic then [.classic] else []) ++ chain.outline.stages) := by
    rw [hhistory]
    rw [h.entering,List.append_assoc,← chain.done_placed d.filter]
    exact (List.Sublist.refl _).append ((List.Sublist.refl _).append hplaced)
  refine ⟨hall.nodup (Outline.nodup_converted _ _),?_,fun hm => ?_⟩
  · rw [hhistory]
    exact List.subset_append_left ..
  · by_contra hc
    have hm := hall.subset hm
    rw [if_neg hc] at hm
    exact chain.outline.classic_not_mem_stages hm

theorem appliedOnce : AppliedOnce fromJitsuClassic o d := by
  have hclassic : Stage.classic ∉ o.done d.filter :=
    fun hm => o.classic_not_mem_stages ((o.done_prefix d.filter).subset hm)
  refine ⟨?_,?_,?_⟩
  · rintro chain rfl p hp
    rw [Chain.runs_iff hp,h.history]
    have hne : p.stage ≠ .classic := by
      intro he
      apply chain.outline.classic_not_mem_stages
      rw [← chain.placed_stages,← he]
      exact List.mem_map_of_mem hp
    split <;> simp [hne]
  · intro hc
    rw [h.history]
    by_cases hr : d.message.retries = 0 <;> simp [hc,hr,hclassic]
  · rintro chain rfl event hevent x failed hx
    have harrived : x ∈ chain.arrivals ⟨event,d.entering⟩ d.filter :=
      chain.lineages_fst _ _ ▸ List.mem_map_of_mem hx
    obtain ⟨hn,hentering,hconv⟩ := h.arrived rfl harrived
    refine ⟨?_,List.nodup_iff_count_le_one.mp hn,fun p hp => ?_⟩
    · split
      · next hc =>
        refine List.count_eq_one_of_mem hn (hentering ?_)
        rw [h.entering,if_pos hc]
        exact List.mem_cons_self
      · next hc => exact List.count_eq_zero.mpr (fun hm => hc (hconv hm))
    · by_cases hrun : d.filter.runs p.func.id = true
      · have hmem : p ∈ chain.before.filter (fun p => d.filter.runs p.func.id) := List.mem_filter.mpr ⟨hp,hrun⟩
        exact (runMarked_applied hmem hx).imp_left (List.count_eq_one_of_mem hn)
      · have hdone : p.stage ∈ chain.outline.done d.filter := by
          by_contra hnot
          exact hrun ((Chain.runs_iff (List.mem_append_left _ hp) d.filter).mpr hnot)
        refine .inl (List.count_eq_one_of_mem hn (hentering ?_))
        rw [h.entering]
        exact List.mem_append_right _ hdone

end Resumed

theorem stages_applied_once
    (h : (deliveries cfg fromJitsuClassic connectionId o).Reachable (fun _ connection => connection.Steady) d)
    (hd : d.settled = false) : AppliedOnce fromJitsuClassic o d := by
  have hinv : d.settled = false → Resumed o d := by
    refine h.invariant (I := fun d => d.settled = false → Resumed o d) ?_ ?_
    · rintro d ⟨hretries,hid,hhistory,-⟩ -
      refine ⟨?_,fun _ => hid⟩
      have hfilter : d.filter = .all := by
        unfold Delivery.filter
        rw [hid]
        decide
      simp [hhistory,hretries,hfilter,Outline.done]
    · intro d connection d' hi hsteady hstep hs
      obtain ⟨⟨hwaiting,ho⟩,rfl⟩ := Option.ite_none_right_eq_some.mp hstep |>.imp_right Option.some.inj
      exact (hi hwaiting).step hsteady ho hs
  exact (hinv hd).appliedOnce

end Retrying

def increment : Builtin ℕ "builtin.transformation." := recognition (fun e => some [e + 1])

def scoring (fails : Bool) : Server ℕ :=
  ⟨[⟨"udf.score",fun _ _ event => if fails then .threw (thrown .retry) else .returned (.one event),none⟩],
    fun _ _ => .answered⟩

def scored (fails : Bool) : Chain ℕ := ⟨[increment],some (scoring fails),bulker (fun _ => none)⟩

def unloaded : Chain ℕ := ⟨[increment],some (scoring false),bulker (fun _ => some .retry)⟩

theorem unloaded_steady : unloaded.Steady where
  builtins t ht := by cases ht
  udfs _ server hserver f hf n k event err hexec := by
    cases hserver
    rw [List.mem_singleton.mp hf] at hexec
    cases hexec

def classicView : Message ℕ := { pageView with classic := true }

def returnedView (classic : Bool) (functionId : String) : Message ℕ :=
  ⟨"m_con","incoming",classic,1,1,functionId,["con"]⟩

theorem stages_applied_once_unloaded : AppliedOnce some unloaded.outline
    ⟨returnedView true "builtin.destination.bulker",[.classic,.transformation 0,.pipeline],false⟩ := by
  have hstart : (deliveries retryConfig some "con" unloaded.outline).Reachable
      (fun _ connection => connection.Steady) ⟨classicView,[],false⟩ := .initial ⟨rfl,rfl,rfl,rfl⟩
  have hsteady : ∀ a ∈ [Connection.ready unloaded], Delivery ℕ → a.Steady :=
    fun a ha _ => List.mem_singleton.mp ha ▸ unloaded_steady
  exact stages_applied_once (hstart.runs hsteady rfl) rfl

theorem transformation_applied_again :
    (deliveries retryConfig some "con" (scored true).outline).run ⟨pageView,[],false⟩ [.ready (scored true)] =
        some ⟨returnedView false "score",[.transformation 0],false⟩ ∧
      (scored false).arrivals ⟨1,[.transformation 0]⟩ (functionFilter "score") =
        [⟨2,[.transformation 0,.transformation 0,.pipeline]⟩] ∧
      ¬ AppliedOnce some (scored true).outline ⟨returnedView false "score",[.transformation 0],false⟩ := by
  refine ⟨by decide +kernel,by decide +kernel,fun h => ?_⟩
  have hruns : (⟨returnedView false "score",[.transformation 0],false⟩ : Delivery ℕ).filter.runs
    increment.id = true := by decide +kernel
  exact (h.resumed (scored true) rfl ⟨.transformation 0,increment.toFunc⟩ List.mem_cons_self).mp hruns
    List.mem_cons_self

end Jitsu.Rotor
