import Jitsu.Rotor.FailedDelivery

namespace Jitsu.Rotor

variable {E : Type}

inductive Stage where
  | classic
  | transformation (position : ℕ)
  | pipeline
  | destination
  deriving DecidableEq, Repr

structure Traced (E : Type) where
  event : E
  history : List Stage
  deriving DecidableEq, Repr

theorem Traced.event_comp (history : List Stage) : Traced.event ∘ (fun e : E => ⟨e,history⟩) = id := rfl

def FuncReturn.traced (event : E) (history : List Stage) : FuncReturn E → FuncReturn (Traced E)
  | .nothing => .one ⟨event,history⟩
  | .one e => .one ⟨e,history⟩
  | .many es => .many (es.map (⟨·,history⟩))
  | .drop => .drop

def FuncError.traced (history : List Stage) (err : FuncError E) : FuncError (Traced E) :=
  ⟨err.name,err.message,err.retryPolicy,err.functionId,err.event.map (List.map (⟨·,history⟩))⟩

def Outcome.traced (stage : Stage) (x : Traced E) : Outcome E → Outcome (Traced E)
  | .returned result => .returned (result.traced x.event (x.history ++ [stage]))
  | .threw err => .threw (err.traced x.history)

structure Placed (E : Type) where
  stage : Stage
  func : Func E

def Placed.traced (p : Placed E) : Func (Traced E) :=
  ⟨p.func.id,fun n x => (p.func.exec n x.event).traced p.stage x⟩

def Placed.marked (p : Placed E) : ℕ → List (Traced E × List Stage) → List (Traced E × List Stage)
  | _, [] => []
  | n, (x,failed) :: xs =>
    let called := p.traced.call n x
    called.2.map (·,if called.1.failure.isSome then failed ++ [p.stage] else failed) ++ p.marked (n + 1) xs

def runMarked : List (Placed E) → ℕ → List (Traced E × List Stage) → List (Traced E × List Stage)
  | [], _, xs => xs
  | p :: ps, n, xs => runMarked ps (n + xs.length) (p.marked n xs)

namespace Chain

variable (chain : Chain E)

def before : List (Placed E) :=
  chain.transformations.mapIdx (fun i t => ⟨.transformation i,t.toFunc⟩) ++
    (chain.server.map (fun server => ⟨.pipeline,server.pipeline⟩)).toList

def placed : List (Placed E) := chain.before ++ [⟨.destination,chain.destination.toFunc⟩]

def tracedChain (x : Traced E) (runFuncs : FuncChainFilter) : List (Entry (Traced E)) × List (Traced E) :=
  runFunctions ((chain.placed.filter (fun p => runFuncs.runs p.func.id)).map Placed.traced) 0 [x]

def arrivals (x : Traced E) (runFuncs : FuncChainFilter) : List (Traced E) :=
  (runFunctions ((chain.before.filter (fun p => runFuncs.runs p.func.id)).map Placed.traced) 0 [x]).2

def lineages (x : Traced E) (runFuncs : FuncChainFilter) : List (Traced E × List Stage) :=
  runMarked (chain.before.filter (fun p => runFuncs.runs p.func.id)) 0 [(x,[])]

theorem placed_functions : chain.placed.map Placed.func = chain.functions := by
  unfold placed before functions stages
  rw [List.map_append,List.map_append,List.mapIdx_eq_zipIdx_map,List.map_map]
  have htransformations : (chain.transformations.zipIdx.map Prod.fst).map Builtin.toFunc =
      chain.transformations.map Builtin.toFunc := by rw [List.zipIdx_map_fst]
  rw [← htransformations,List.map_map]
  cases chain.server <;> rfl

end Chain

def Entry.erase (c : Entry (Traced E)) : Entry E :=
  ⟨c.functionId,c.failure.map (fun (x,err) => (x.event,⟨err.name,err.message,err.retryPolicy,err.functionId,
    err.event.map (List.map Traced.event)⟩)),c.dropped⟩

def Rejection.erase (r : Rejection (Traced E)) : Rejection E :=
  ⟨r.name,r.message,r.retryPolicy,r.functionId,r.event.map Traced.event⟩

section Erasure

theorem FuncReturn.traced_isDropResult (event : E) (history : List Stage) (r : FuncReturn E) :
    (r.traced event history).isDropResult = r.isDropResult := by
  cases r with
  | many es => cases es <;> rfl
  | _ => rfl

theorem FuncReturn.traced_events (x : Traced E) (history : List Stage) (r : FuncReturn E) :
    (r.traced x.event history).events x = (r.events x.event).map (⟨·,history⟩) := by
  cases r <;> rfl

theorem FuncError.traced_erase (history : List Stage) (err : FuncError E) :
    (err.traced history).event.map (List.map Traced.event) = err.event := by
  unfold FuncError.traced
  cases err.event <;> simp [Traced.event_comp]

theorem Placed.call_erase (p : Placed E) (n : ℕ) (x : Traced E) :
    (p.traced.call n x).1.erase = (p.func.call n x.event).1 ∧
      (p.traced.call n x).2.map Traced.event = (p.func.call n x.event).2 := by
  unfold Func.call Placed.traced
  dsimp only
  cases p.func.exec n x.event with
  | returned result =>
    simp [Outcome.traced,Entry.erase,FuncReturn.traced_isDropResult,FuncReturn.traced_events,Traced.event_comp]
  | threw err =>
    refine ⟨?_,?_⟩
    · simp only [Outcome.traced,Entry.erase,Option.map_some,FuncError.traced_erase]
      rfl
    · dsimp only [Outcome.traced,FuncError.traced]
      split
      · rfl
      · split
        · cases err.event <;> simp [Traced.event_comp]
        · rfl

theorem Placed.runEvents_erase (p : Placed E) (n : ℕ) (xs : List (Traced E)) :
    (p.traced.runEvents n xs).1.map Entry.erase = (p.func.runEvents n (xs.map Traced.event)).1 ∧
      (p.traced.runEvents n xs).2.map Traced.event = (p.func.runEvents n (xs.map Traced.event)).2 := by
  induction xs generalizing n with
  | nil => exact ⟨rfl,rfl⟩
  | cons x xs ih =>
    obtain ⟨hentry,hevents⟩ := p.call_erase n x
    obtain ⟨hlog,hrest⟩ := ih (n + 1)
    simp only [Func.runEvents,List.map_cons,List.map_append]
    exact ⟨by rw [hentry,hlog],by rw [hevents,hrest]⟩

theorem runFunctions_erase (ps : List (Placed E)) (n : ℕ) (xs : List (Traced E)) :
    (runFunctions (ps.map Placed.traced) n xs).1.map Entry.erase =
        (runFunctions (ps.map Placed.func) n (xs.map Traced.event)).1 ∧
      (runFunctions (ps.map Placed.traced) n xs).2.map Traced.event =
        (runFunctions (ps.map Placed.func) n (xs.map Traced.event)).2 := by
  induction ps generalizing n xs with
  | nil => exact ⟨rfl,rfl⟩
  | cons p ps ih =>
    obtain ⟨hlog,hevents⟩ := p.runEvents_erase n xs
    obtain ⟨hrestLog,hrest⟩ := ih (n + xs.length) (p.traced.runEvents n xs).2
    simp only [List.map_cons,runFunctions,← hevents,List.isEmpty_map,List.length_map]
    split
    · exact ⟨hlog,rfl⟩
    · exact ⟨by rw [List.map_append,hlog,hrestLog],hrest⟩

theorem Chain.tracedChain_erase (chain : Chain E) (x : Traced E) (runFuncs : FuncChainFilter) :
    (chain.tracedChain x runFuncs).1.map Entry.erase = (chain.runChain x.event runFuncs).1 := by
  unfold Chain.tracedChain Chain.runChain
  rw [(runFunctions_erase _ _ _).1,← chain.placed_functions,List.filter_map]
  rfl

theorem checkError_erase (log : List (Entry (Traced E))) :
    checkError (log.map Entry.erase) = (checkError log).map Rejection.erase := by
  unfold checkError
  rw [List.findSome?_map,List.map_findSome?]
  congr 1
  funext c
  cases hc : c.failure <;> simp [Entry.erase,Rejection.erase,hc]

end Erasure

section Histories

def Placed.rejection (p : Placed E) (x : Traced E) (err : FuncError E) : Rejection (Traced E) :=
  ⟨err.name,err.message,err.retryPolicy,if err.functionId = "" then p.func.id else err.functionId,some x⟩

theorem Placed.call_cases (p : Placed E) (n : ℕ) (x : Traced E) :
    ((p.traced.call n x).1.failure = none ∧ ∀ y ∈ (p.traced.call n x).2, y.history = x.history ++ [p.stage]) ∨
      ∃ err, p.func.exec n x.event = .threw err ∧
        (p.traced.call n x).1.failure = some (x,err.traced x.history) ∧
        ∀ y ∈ (p.traced.call n x).2, y.history = x.history := by
  unfold Func.call Placed.traced
  dsimp only
  cases p.func.exec n x.event with
  | returned result =>
    refine .inl ⟨rfl,fun y hy => ?_⟩
    dsimp only [Outcome.traced] at hy
    rw [FuncReturn.traced_events] at hy
    obtain ⟨_,-,rfl⟩ := List.mem_map.mp hy
    rfl
  | threw err =>
    refine .inr ⟨err,rfl,rfl,fun y hy => ?_⟩
    dsimp only [Outcome.traced,FuncError.traced] at hy
    split at hy
    · cases hy
    · split at hy
      · cases herr : err.event with
        | none =>
          rw [herr] at hy
          rw [List.mem_singleton.mp hy]
        | some events =>
          rw [herr] at hy
          obtain ⟨_,-,rfl⟩ := List.mem_map.mp hy
          rfl
      · rw [List.mem_singleton.mp hy]

theorem Func.call_functionId (f : Func E) (n : ℕ) (event : E) : (f.call n event).1.functionId = f.id := by
  unfold Func.call
  split <;> rfl

theorem checkError_append (pre post : List (Entry E)) :
    checkError (pre ++ post) = (checkError pre).or (checkError post) := List.findSome?_append

theorem checkError_eq_none {log : List (Entry E)} : checkError log = none ↔ ∀ c ∈ log, c.failure = none := by
  unfold checkError
  simp

variable {n : ℕ} {xs : List (Traced E)} {y : Traced E}

theorem Placed.runEvents_history (p : Placed E)
    (hy : y ∈ (p.traced.runEvents n xs).2) : ∃ x ∈ xs, y.history = x.history ++ [p.stage] ∨
      y.history = x.history ∧
        ∃ c ∈ (p.traced.runEvents n xs).1, c.functionId = p.func.id ∧ c.failure ≠ none := by
  induction xs generalizing n with
  | nil => cases hy
  | cons x xs ih =>
    rcases List.mem_append.mp hy with hy | hy
    · refine ⟨x,List.mem_cons_self,?_⟩
      rcases p.call_cases n x with ⟨-,hall⟩ | ⟨err,-,hf,hall⟩
      · exact .inl (hall y hy)
      · exact .inr ⟨hall y hy,_,List.mem_cons_self,Func.call_functionId ..,by simp [hf]⟩
    · obtain ⟨x',hx',h⟩ := ih hy
      refine ⟨x',List.mem_cons_of_mem x hx',h.imp_right ?_⟩
      rintro ⟨hh,c,hc,hfail⟩
      exact ⟨hh,c,List.mem_cons_of_mem _ hc,hfail⟩

theorem Placed.runEvents_first (p : Placed E) {r : Rejection (Traced E)}
    (h : checkError (p.traced.runEvents n xs).1 = some r) :
    ∃ x ∈ xs, ∃ k err, p.func.exec k x.event = .threw err ∧ r = p.rejection x err := by
  induction xs generalizing n with
  | nil => cases h
  | cons x xs ih =>
    change checkError ([(p.traced.call n x).1] ++ (p.traced.runEvents (n + 1) xs).1) = _ at h
    rw [checkError_append] at h
    rcases p.call_cases n x with ⟨hf,-⟩ | ⟨err,hexec,hf,-⟩
    · rw [checkError_eq_none.mpr (by simpa using hf),Option.none_or] at h
      obtain ⟨x',hx',hrest⟩ := ih h
      exact ⟨x',List.mem_cons_of_mem x hx',hrest⟩
    · have hr : checkError [(p.traced.call n x).1] = _ := checkError_first (List.forall_mem_nil _) hf
      rw [hr,Option.some_or,Func.call_functionId] at h
      exact ⟨x,List.mem_cons_self,n,err,hexec,(Option.some.inj h).symm⟩

variable {ps : List (Placed E)}

theorem runFunctions_first {history : List Stage}
    {r : Rejection (Traced E)} (hxs : ∀ x ∈ xs, x.history = history)
    (h : checkError (runFunctions (ps.map Placed.traced) n xs).1 = some r) :
    ∃ done p rest x k err, ps = done ++ p :: rest ∧ p.func.exec k x.event = .threw err ∧
      x.history = history ++ done.map Placed.stage ∧ r = p.rejection x err := by
  induction ps generalizing n xs history with
  | nil => cases h
  | cons p ps ih =>
    cases hstage : checkError (p.traced.runEvents n xs).1 with
    | some first =>
      have hr : r = first := by
        simp only [List.map_cons,runFunctions] at h
        split at h
        · exact Option.some.inj (h.symm.trans hstage)
        · rw [checkError_append,hstage] at h
          exact (Option.some.inj h).symm
      obtain ⟨x,hx,k,err,hexec,hfirst⟩ := p.runEvents_first hstage
      exact ⟨[],p,ps,x,k,err,rfl,hexec,by simpa using hxs x hx,hr.trans hfirst⟩
    | none =>
      simp only [List.map_cons,runFunctions] at h
      split at h
      · rw [hstage] at h
        cases h
      · rw [checkError_append,hstage,Option.none_or] at h
        have hout : ∀ y ∈ (p.traced.runEvents n xs).2, y.history = history ++ [p.stage] := by
          intro y hy
          obtain ⟨x,hx,hyx | ⟨-,c,hc,-,hfail⟩⟩ := p.runEvents_history hy
          · rw [hyx,hxs x hx]
          · exact absurd (checkError_eq_none.mp hstage c hc) hfail
        obtain ⟨done,q,rest,x,k,err,rfl,hexec,hx,hr⟩ := ih hout h
        exact ⟨p :: done,q,rest,x,k,err,rfl,hexec,by simpa using hx,hr⟩

theorem runFunctions_history
    (hy : y ∈ (runFunctions (ps.map Placed.traced) n xs).2) :
    ∃ x ∈ xs, ∃ applied, applied.Sublist (ps.map Placed.stage) ∧ y.history = x.history ++ applied := by
  induction ps generalizing n xs with
  | nil => exact ⟨y,hy,[],.slnil,(List.append_nil _).symm⟩
  | cons p ps ih =>
    simp only [List.map_cons,runFunctions] at hy
    split at hy
    · cases hy
    · obtain ⟨z,hz,applied,hsub,hyz⟩ := ih hy
      obtain ⟨x,hx,hzx | ⟨hzx,-⟩⟩ := p.runEvents_history hz
      · exact ⟨x,hx,p.stage :: applied,hsub.cons_cons _,by simp [hyz,hzx]⟩
      · exact ⟨x,hx,applied,hsub.cons _,by rw [hyz,hzx]⟩

theorem Placed.marked_fst (p : Placed E) (n : ℕ) (xs : List (Traced E × List Stage)) :
    (p.marked n xs).map Prod.fst = (p.traced.runEvents n (xs.map Prod.fst)).2 := by
  induction xs generalizing n with
  | nil => rfl
  | cons x xs ih =>
    simp only [Placed.marked,Func.runEvents,List.map_append,List.map_map,List.map_cons,ih]
    exact congrArg (· ++ _) (List.map_id _)

theorem runMarked_fst (ps : List (Placed E)) (n : ℕ) (xs : List (Traced E × List Stage)) :
    (runMarked ps n xs).map Prod.fst = (runFunctions (ps.map Placed.traced) n (xs.map Prod.fst)).2 := by
  have hnil (ps : List (Placed E)) (n : ℕ) : runMarked ps n [] = [] := by
    induction ps generalizing n with
    | nil => rfl
    | cons p ps ih => exact ih _
  induction ps generalizing n xs with
  | nil => rfl
  | cons p ps ih =>
    simp only [runMarked,List.map_cons,runFunctions,← p.marked_fst,List.isEmpty_map,List.length_map]
    split
    · next hempty => rw [List.isEmpty_iff.mp hempty,hnil]; rfl
    · exact ih _ _

theorem Chain.lineages_fst (chain : Chain E) (x : Traced E) (runFuncs : FuncChainFilter) :
    (chain.lineages x runFuncs).map Prod.fst = chain.arrivals x runFuncs := runMarked_fst _ _ _

variable {ms : List (Traced E × List Stage)} {m : Traced E × List Stage}

theorem Placed.marked_cases (p : Placed E) (hm : m ∈ p.marked n ms) :
    ∃ x ∈ ms, x.1.history ⊆ m.1.history ∧ x.2 ⊆ m.2 ∧ (p.stage ∈ m.1.history ∨ p.stage ∈ m.2) := by
  induction ms generalizing n with
  | nil => cases hm
  | cons x ms ih =>
    rcases List.mem_append.mp hm with hm | hm
    · refine ⟨x,List.mem_cons_self,?_⟩
      obtain ⟨y,hy,rfl⟩ := List.mem_map.mp hm
      rcases p.call_cases n x.1 with ⟨hf,hall⟩ | ⟨err,-,hf,hall⟩
      · simp [hall y hy,hf]
      · simp [hall y hy,hf]
    · obtain ⟨x',hx',h⟩ := ih hm
      exact ⟨x',List.mem_cons_of_mem x hx',h⟩

theorem runMarked_grows (hm : m ∈ runMarked ps n ms) : ∃ x ∈ ms, x.1.history ⊆ m.1.history ∧ x.2 ⊆ m.2 := by
  induction ps generalizing n ms with
  | nil => exact ⟨m,hm,List.Subset.refl _,List.Subset.refl _⟩
  | cons p ps ih =>
    obtain ⟨z,hz,hhistory,hfailed⟩ := ih hm
    obtain ⟨x,hx,hhistory',hfailed',-⟩ := p.marked_cases hz
    exact ⟨x,hx,List.Subset.trans hhistory' hhistory,List.Subset.trans hfailed' hfailed⟩

theorem runMarked_applied {p : Placed E} (hp : p ∈ ps) (hm : m ∈ runMarked ps n ms) :
    p.stage ∈ m.1.history ∨ p.stage ∈ m.2 := by
  induction ps generalizing n ms with
  | nil => cases hp
  | cons q ps ih =>
    have hm : m ∈ runMarked ps (n + ms.length) (q.marked n ms) := hm
    rcases List.mem_cons.mp hp with rfl | hp
    · obtain ⟨z,hz,hhistory,hfailed⟩ := runMarked_grows hm
      obtain ⟨-,-,-,-,hstage⟩ := p.marked_cases hz
      exact hstage.imp (hhistory ·) (hfailed ·)
    · exact ih hp hm

end Histories

end Jitsu.Rotor
