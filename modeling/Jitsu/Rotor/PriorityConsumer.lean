import Jitsu.Lib.Text
import Jitsu.Lib.Transition

namespace Jitsu.Rotor.PriorityConsumer

open Transition

variable {τ : Type}

structure RateLimitWindow (τ : Type) where
  activated : Bool
  task : τ
  due : ℕ
  deriving DecidableEq, Repr

structure Consumer (τ : Type) where
  now : ℕ
  rateLimitWindows : String → Option (RateLimitWindow τ)
  activatedOn : String → Bool
  starts : List (String × τ × ℕ)
  running : String → ℕ

inductive Action (τ : Type) where
  | elapse (ms : ℕ)
  | trigger (key : String) (task : τ)
  | timeout (key : String)
  | complete (key : String)
  deriving DecidableEq, Repr

inductive Found (τ : Type) where
  | undefined
  | window (w : RateLimitWindow τ)
  | inherited (activated : Bool)

namespace Consumer

variable (intervalMs : ℕ) (c : Consumer τ)

def opening (now : ℕ) : Consumer τ := ⟨now,fun _ => none,fun _ => false,[],fun _ => 0⟩

def lookup (key : String) : Found τ :=
  match c.rateLimitWindows key with
  | some w => .window w
  | none =>
    if key ∈ objectPrototype then .inherited (c.activatedOn key || c.activatedOn "__proto__")
    else if key = "activated" ∧ c.activatedOn "__proto__" = true then .inherited true
    else .undefined

def setWindow (key : String) (w : Option (RateLimitWindow τ)) : Consumer τ :=
  { c with rateLimitWindows := Function.update c.rateLimitWindows key w }

def execute (key : String) (task : τ) : Consumer τ :=
  { c with
    starts := c.starts ++ [(key,task,c.now)]
    running := Function.update c.running key (c.running key + 1) }

def rateLimitedExecution (key : String) (task : τ) : Consumer τ :=
  match c.lookup key with
  | .undefined => (c.setWindow key (some ⟨false,task,c.now + intervalMs⟩)).execute key task
  | .window w => if w.activated then c else c.setWindow key (some { w with activated := true })
  | .inherited activated =>
    if activated then c else { c with activatedOn := Function.update c.activatedOn key true }

def windowEnds (key : String) : Option (Consumer τ) :=
  match c.rateLimitWindows key with
  | none => none
  | some w =>
    if c.now < w.due then none
    else if w.activated then
      some ((c.setWindow key (some ⟨false,w.task,c.now + intervalMs⟩)).execute key w.task)
    else some (c.setWindow key none)

def step : Action τ → Option (Consumer τ)
  | .elapse ms => some { c with now := c.now + ms }
  | .trigger key task => some (c.rateLimitedExecution intervalMs key task)
  | .timeout key => c.windowEnds intervalMs key
  | .complete key =>
    if c.running key = 0 then none
    else some { c with running := Function.update c.running key (c.running key - 1) }

end Consumer

structure Limiter (τ : Type) where
  now : ℕ
  window : Option (RateLimitWindow τ)
  starts : List (τ × ℕ)
  running : ℕ
  deriving DecidableEq, Repr

inductive Event (τ : Type) where
  | elapse (ms : ℕ)
  | trigger (task : τ)
  | timeout
  | complete
  deriving DecidableEq, Repr

namespace Limiter

variable (intervalMs : ℕ) (l : Limiter τ)

def opening (now : ℕ) : Limiter τ := ⟨now,none,[],0⟩

def execute (task : τ) : Limiter τ :=
  { l with starts := l.starts ++ [(task,l.now)], running := l.running + 1 }

def trigger (task : τ) : Limiter τ :=
  match l.window with
  | none => { l with window := some ⟨false,task,l.now + intervalMs⟩ }.execute task
  | some w => { l with window := some { w with activated := true } }

def timeout : Option (Limiter τ) :=
  match l.window with
  | none => none
  | some w =>
    if l.now < w.due then none
    else if w.activated then some ({ l with window := some ⟨false,w.task,l.now + intervalMs⟩ }.execute w.task)
    else some { l with window := none }

def step : Event τ → Option (Limiter τ)
  | .elapse ms => some { l with now := l.now + ms }
  | .trigger task => some (l.trigger intervalMs task)
  | .timeout => l.timeout intervalMs
  | .complete => if l.running = 0 then none else some { l with running := l.running - 1 }

end Limiter

def Consumer.view (c : Consumer τ) (key : String) : Limiter τ where
  now := c.now
  window := c.rateLimitWindows key
  starts := (c.starts.filter fun s => s.1 = key).map (·.2)
  running := c.running key

def Action.event (key : String) : Action τ → Option (Event τ)
  | .elapse ms => some (.elapse ms)
  | .trigger k task => if k = key then some (.trigger task) else none
  | .timeout k => if k = key then some .timeout else none
  | .complete k => if k = key then some .complete else none

def consumers (intervalMs : ℕ) : System (Consumer τ) (Action τ) where
  initial c := ∃ now, c = .opening now
  step := Consumer.step intervalMs

def limiters (intervalMs : ℕ) : System (Limiter τ) (Event τ) where
  initial l := ∃ now, l = .opening now
  step := Limiter.step intervalMs

section Pacing

variable {intervalMs : ℕ} {l l' : Limiter τ}

structure Paced (intervalMs : ℕ) (l : Limiter τ) : Prop where
  spaced : (l.starts.map (·.2)).Pairwise fun a b => a + intervalMs ≤ b
  idle : l.window = none → ∀ s ∈ l.starts, s.2 + intervalMs ≤ l.now
  timed : ∀ w, l.window = some w → ∀ s ∈ l.starts, s.2 + intervalMs ≤ w.due

theorem paced_opening (now : ℕ) : Paced intervalMs (Limiter.opening now : Limiter τ) :=
  ⟨.nil,fun _ _ h => absurd h List.not_mem_nil,nofun⟩

theorem Paced.started {task : τ} (hl : Paced intervalMs l) (h : ∀ s ∈ l.starts, s.2 + intervalMs ≤ l.now) :
    Paced intervalMs ({ l with window := some ⟨false,task,l.now + intervalMs⟩ }.execute task) := by
  refine ⟨?_,nofun,?_⟩
  · simp only [Limiter.execute,List.map_append,List.pairwise_append]
    refine ⟨hl.spaced,List.pairwise_singleton _ _,List.forall_mem_map.mpr fun s hs b hb => ?_⟩
    cases List.mem_singleton.mp hb
    exact h s hs
  · rintro w ⟨⟩ s hs
    rcases List.mem_append.mp hs with hs | hs
    · exact (h s hs).trans (Nat.le_add_right _ _)
    · cases List.mem_singleton.mp hs
      exact Nat.le_refl _

theorem Paced.trigger (hl : Paced intervalMs l) (task : τ) : Paced intervalMs (l.trigger intervalMs task) := by
  cases hw : l.window with
  | none =>
    simp only [Limiter.trigger,hw]
    exact hl.started (hl.idle hw)
  | some w =>
    simp only [Limiter.trigger,hw]
    refine ⟨hl.spaced,nofun,?_⟩
    rintro _ ⟨⟩
    exact hl.timed w hw

theorem timeout_cases (h : l.timeout intervalMs = some l') : ∃ w, l.window = some w ∧ w.due ≤ l.now ∧
    (w.activated = true ∧ l' = { l with window := some ⟨false,w.task,l.now + intervalMs⟩ }.execute w.task ∨
      w.activated = false ∧ l' = { l with window := none }) := by
  cases hw : l.window with
  | none => simp [Limiter.timeout,hw] at h
  | some w =>
    simp only [Limiter.timeout,hw] at h
    split_ifs at h with hdue hactive
    · exact ⟨w,rfl,Nat.le_of_not_lt hdue,.inl ⟨hactive,(Option.some.inj h).symm⟩⟩
    · exact ⟨w,rfl,Nat.le_of_not_lt hdue,.inr ⟨by simpa using hactive,(Option.some.inj h).symm⟩⟩

variable (hl : Paced intervalMs l)

include hl

theorem Paced.timeout (h : l.timeout intervalMs = some l') :
    Paced intervalMs l' := by
  obtain ⟨w,hw,hdue,⟨-,rfl⟩ | ⟨-,rfl⟩⟩ := timeout_cases h
  · exact hl.started fun s hs => (hl.timed w hw s hs).trans hdue
  · exact ⟨hl.spaced,fun _ s hs => (hl.timed w hw s hs).trans hdue,nofun⟩

theorem Paced.step {e : Event τ} (h : l.step intervalMs e = some l') :
    Paced intervalMs l' := by
  cases e with
  | elapse ms =>
    cases h
    exact ⟨hl.spaced,fun hw s hs => (hl.idle hw s hs).trans (Nat.le_add_right _ _),hl.timed⟩
  | trigger task =>
    cases h
    exact hl.trigger task
  | timeout => exact hl.timeout h
  | complete =>
    simp only [Limiter.step] at h
    split_ifs at h
    cases h
    exact ⟨hl.spaced,hl.idle,hl.timed⟩

theorem Paced.run {es : List (Event τ)}
    (h : (limiters intervalMs).run l es = some l') :
    Paced intervalMs l' := by
  induction es generalizing l with
  | nil =>
    cases h
    exact hl
  | cons e es ih =>
    obtain ⟨m,hm,h⟩ := Option.bind_eq_some_iff.mp h
    exact ih (hl.step hm) h

end Pacing

section Viewing

variable {c d : Consumer τ} {key k : String} {intervalMs : ℕ}

@[simp] theorem view_now : (c.view key).now = c.now := rfl

@[simp] theorem view_setWindow_same (w : Option (RateLimitWindow τ)) :
    (c.setWindow key w).view key = { c.view key with window := w } := by
  simp [Consumer.setWindow,Consumer.view]

theorem view_setWindow_ne (h : k ≠ key) (w : Option (RateLimitWindow τ)) :
    (c.setWindow k w).view key = c.view key := by
  simp [Consumer.setWindow,Consumer.view,h.symm]

@[simp] theorem view_execute_same (task : τ) : (c.execute key task).view key = (c.view key).execute task := by
  simp [Consumer.execute,Consumer.view,Limiter.execute]

theorem view_execute_ne (h : k ≠ key) (task : τ) : (c.execute k task).view key = c.view key := by
  simp [Consumer.execute,Consumer.view,h,h.symm]

def Consumer.Clean (c : Consumer τ) : Prop := ∀ name, c.activatedOn name = false

def Action.Plain : Action τ → Prop
  | .trigger key _ => key ∉ objectPrototype
  | _ => True

theorem lookup_clean (hc : c.Clean) (hk : k ∉ objectPrototype) :
    c.lookup k = match c.rateLimitWindows k with
      | some w => .window w
      | none => .undefined := by
  simp [Consumer.lookup,hk,hc "__proto__"]

theorem rateLimitedExecution_clean (hc : c.Clean) (hk : k ∉ objectPrototype) (task : τ) :
    (c.rateLimitedExecution intervalMs k task).Clean := by
  cases hw : c.rateLimitWindows k with
  | none =>
    simp only [Consumer.rateLimitedExecution,lookup_clean hc hk,hw]
    exact hc
  | some w =>
    simp only [Consumer.rateLimitedExecution,lookup_clean hc hk,hw]
    split
    · exact hc
    · exact hc

theorem view_rateLimitedExecution (intervalMs : ℕ) (hc : c.Clean) (hk : key ∉ objectPrototype) (task : τ) :
    (c.rateLimitedExecution intervalMs key task).view key = (c.view key).trigger intervalMs task := by
  cases hw : c.rateLimitWindows key with
  | none =>
    have hview : (c.view key).window = none := hw
    simp only [Consumer.rateLimitedExecution,lookup_clean hc hk,hw,Limiter.trigger,hview,view_execute_same,
      view_setWindow_same]
    rfl
  | some w =>
    have hview : (c.view key).window = some w := hw
    simp only [Consumer.rateLimitedExecution,lookup_clean hc hk,hw,Limiter.trigger,hview]
    split
    · rename_i hactive
      cases w
      cases hactive
      rw [← hview]
    · rw [view_setWindow_same]

theorem view_rateLimitedExecution_ne (intervalMs : ℕ) (hne : k ≠ key) (task : τ) :
    (c.rateLimitedExecution intervalMs k task).view key = c.view key := by
  simp only [Consumer.rateLimitedExecution]
  split
  · rw [view_execute_ne hne,view_setWindow_ne hne]
  · split
    · rfl
    · rw [view_setWindow_ne hne]
  · split
    · rfl
    · rfl

theorem windowEnds_view : (c.windowEnds intervalMs key).map (·.view key) = (c.view key).timeout intervalMs :=
  by
  cases hw : c.rateLimitWindows key with
  | none =>
    have hview : (c.view key).window = none := hw
    simp [Consumer.windowEnds,hw,Limiter.timeout,hview]
  | some w =>
    have hview : (c.view key).window = some w := hw
    simp only [Consumer.windowEnds,hw,Limiter.timeout,hview,view_now]
    rcases Nat.lt_or_ge c.now w.due with hdue | hdue
    · simp [hdue]
    · cases hactive : w.activated with
      | false => simp [hdue.not_gt]
      | true => simp [hdue.not_gt]

theorem windowEnds_keeps (h : c.windowEnds intervalMs k = some d) :
    d.activatedOn = c.activatedOn ∧ ∀ key, k ≠ key → d.view key = c.view key := by
  cases hw : c.rateLimitWindows k with
  | none => simp [Consumer.windowEnds,hw] at h
  | some w =>
    simp only [Consumer.windowEnds,hw] at h
    split_ifs at h
    · cases h
      exact ⟨rfl,fun key hne => by rw [view_execute_ne hne,view_setWindow_ne hne]⟩
    · cases h
      exact ⟨rfl,fun key hne => view_setWindow_ne hne _⟩

variable {a : Action τ}

theorem step_clean (hc : c.Clean) (ha : a.Plain) (h : c.step intervalMs a = some d) :
    d.Clean := by
  cases a with
  | elapse ms =>
    cases h
    exact hc
  | trigger k task =>
    cases h
    exact rateLimitedExecution_clean hc ha task
  | timeout k =>
    have hkeeps := (windowEnds_keeps h).1
    exact fun name => hkeeps ▸ hc name
  | complete k =>
    simp only [Consumer.step] at h
    split_ifs at h
    cases h
    exact hc

theorem step_other (ha : a.event key = none) (h : c.step intervalMs a = some d) :
    d.view key = c.view key := by
  cases a with
  | elapse ms => cases ha
  | trigger k task =>
    have hne : k ≠ key := by simpa [Action.event] using ha
    cases h
    exact view_rateLimitedExecution_ne intervalMs hne task
  | timeout k =>
    have hne : k ≠ key := by simpa [Action.event] using ha
    exact (windowEnds_keeps h).2 key hne
  | complete k =>
    have hne : k ≠ key := by simpa [Action.event] using ha
    simp only [Consumer.step] at h
    split_ifs at h
    cases h
    simp [Consumer.view,hne.symm]

theorem step_own (intervalMs : ℕ) {e : Event τ} (hc : c.Clean) (ha : a.Plain)
    (he : a.event key = some e) :
    (c.step intervalMs a).map (·.view key) = (c.view key).step intervalMs e := by
  cases a with
  | elapse ms =>
    cases he
    rfl
  | trigger k task =>
    obtain ⟨rfl,rfl⟩ : k = key ∧ .trigger task = e := by simpa [Action.event] using he
    simp only [Consumer.step,Limiter.step,Option.map_some,view_rateLimitedExecution intervalMs hc ha]
  | timeout k =>
    obtain ⟨rfl,rfl⟩ : k = key ∧ .timeout = e := by simpa [Action.event] using he
    exact windowEnds_view
  | complete k =>
    obtain ⟨rfl,rfl⟩ : k = key ∧ .complete = e := by simpa [Action.event] using he
    simp only [Consumer.step,Limiter.step]
    have hrunning : (c.view k).running = c.running k := rfl
    rw [hrunning]
    split_ifs
    · rfl
    · simp [Consumer.view]

variable {as : List (Action τ)}

theorem run_clean (hc : c.Clean) (has : ∀ a ∈ as, a.Plain)
    (h : (consumers intervalMs).run c as = some d) : d.Clean := by
  induction as generalizing c with
  | nil =>
    cases h
    exact hc
  | cons a as ih =>
    obtain ⟨ha,has⟩ := List.forall_mem_cons.mp has
    obtain ⟨u,hu,h⟩ := (System.run_cons _).mp h
    exact ih (step_clean hc ha hu) has h

theorem run_view (hc : c.Clean) (has : ∀ a ∈ as, a.Plain)
    (h : (consumers intervalMs).run c as = some d) :
    (limiters intervalMs).run (c.view key) (as.filterMap (Action.event key)) = some (d.view key) := by
  induction as generalizing c with
  | nil =>
    cases h
    rfl
  | cons a as ih =>
    obtain ⟨ha,has⟩ := List.forall_mem_cons.mp has
    obtain ⟨u,hu,h⟩ := (System.run_cons _).mp h
    have hrest := ih (step_clean hc ha hu) has h
    cases he : a.event key with
    | none =>
      rw [List.filterMap_cons_none he,← step_other he hu]
      exact hrest
    | some e =>
      have hstep := step_own intervalMs hc ha he
      change Consumer.step intervalMs c a = some u at hu
      rw [hu] at hstep
      rw [List.filterMap_cons_some he]
      exact (System.run_cons _).mpr ⟨_,hstep.symm,hrest⟩

theorem run_own {l : Limiter τ} (hc : c.Clean) (has : ∀ a ∈ as, a.Plain)
    (hown : ∀ a ∈ as, (a.event key).isSome)
    (h : (limiters intervalMs).run (c.view key) (as.filterMap (Action.event key)) = some l) :
    ∃ d, (consumers intervalMs).run c as = some d ∧ d.view key = l := by
  induction as generalizing c with
  | nil =>
    cases h
    exact ⟨c,rfl,rfl⟩
  | cons a as ih =>
    obtain ⟨ha,has⟩ := List.forall_mem_cons.mp has
    obtain ⟨hsome,hown⟩ := List.forall_mem_cons.mp hown
    obtain ⟨e,he⟩ := Option.isSome_iff_exists.mp hsome
    rw [List.filterMap_cons_some he] at h
    obtain ⟨m,hm,h⟩ := (System.run_cons _).mp h
    have hstep := (step_own intervalMs hc ha he).trans hm
    obtain ⟨u,hu,rfl⟩ := Option.map_eq_some_iff.mp hstep
    obtain ⟨d,hd,hview⟩ := ih (step_clean hc ha hu) has hown h
    exact ⟨d,(System.run_cons _).mpr ⟨u,hu,hd⟩,hview⟩

end Viewing

section Triggers

variable {c d : Consumer τ} {key : String} {intervalMs : ℕ} {w : RateLimitWindow τ}

def Answered (intervalMs : ℕ) (c : Consumer τ) (key : String) (task : τ) : Prop :=
  ∀ d, c.step intervalMs (.trigger key task) = some d →
    d.starts = c.starts ++ [(key,task,c.now)] ∨
    ∃ w, c.rateLimitWindows key = some w ∧
      ∀ as e, Action.timeout key ∉ as → (consumers intervalMs).run d as = some e → c.now ≤ e.now ∧
        ((∃ f, e.step intervalMs (.timeout key) = some f) ↔ w.due ≤ e.now) ∧
        ∀ f, e.step intervalMs (.timeout key) = some f → f.starts = e.starts ++ [(key,w.task,e.now)]

theorem window_view (c : Consumer τ) (key : String) : c.rateLimitWindows key = (c.view key).window := rfl

theorem waiting_step {a : Action τ} (hw : c.rateLimitWindows key = some w) (hactive : w.activated = true)
    (ha : a ≠ .timeout key) (h : c.step intervalMs a = some d) :
    d.rateLimitWindows key = some w ∧ c.now ≤ d.now := by
  cases a with
  | elapse ms =>
    cases h
    exact ⟨hw,Nat.le_add_right _ _⟩
  | trigger k task =>
    cases h
    by_cases hne : k = key
    · subst hne
      have hfound : c.lookup k = .window w := by simp [Consumer.lookup,hw]
      simp [Consumer.rateLimitedExecution,hfound,hactive,hw]
    · have hview := view_rateLimitedExecution_ne (c := c) intervalMs hne task
      refine ⟨?_,(congrArg Limiter.now hview).ge⟩
      rw [window_view,hview]
      exact hw
  | timeout k =>
    have hview := (windowEnds_keeps h).2 key (fun heq => ha (heq ▸ rfl))
    refine ⟨?_,(congrArg Limiter.now hview).ge⟩
    rw [window_view,hview]
    exact hw
  | complete k =>
    simp only [Consumer.step] at h
    split_ifs at h
    cases h
    exact ⟨hw,Nat.le_refl _⟩

theorem waiting_run {as : List (Action τ)} (hw : c.rateLimitWindows key = some w)
    (hactive : w.activated = true)
    (has : Action.timeout key ∉ as) (h : (consumers intervalMs).run c as = some d) :
    d.rateLimitWindows key = some w ∧ c.now ≤ d.now := by
  induction as generalizing c with
  | nil =>
    cases h
    exact ⟨hw,Nat.le_refl _⟩
  | cons a as ih =>
    obtain ⟨ha,has⟩ := not_or.mp (List.mem_cons.not.mp has)
    obtain ⟨u,hu,h⟩ := (System.run_cons _).mp h
    obtain ⟨hu,hnow⟩ := waiting_step hw hactive (Ne.symm ha) hu
    obtain ⟨hd,hlater⟩ := ih hu has h
    exact ⟨hd,hnow.trans hlater⟩

theorem waiting_ends (intervalMs : ℕ) (hw : c.rateLimitWindows key = some w) (hactive : w.activated = true) :
    ((∃ d, c.step intervalMs (.timeout key) = some d) ↔ w.due ≤ c.now) ∧
      ∀ d, c.step intervalMs (.timeout key) = some d → d.starts = c.starts ++ [(key,w.task,c.now)] := by
  rcases Nat.lt_or_ge c.now w.due with hdue | hdue
  · simp [Consumer.step,Consumer.windowEnds,hw,hdue]
  · simp [Consumer.step,Consumer.windowEnds,hw,hdue.not_gt,hactive,hdue,Consumer.execute,Consumer.setWindow]

theorem Consumer.Clean.answered (hc : c.Clean) (hk : key ∉ objectPrototype) (task : τ) :
    Answered intervalMs c key task := by
  rintro d ⟨⟩
  cases hw : c.rateLimitWindows key with
  | none =>
    left
    simp [Consumer.rateLimitedExecution,lookup_clean hc hk,hw,Consumer.execute,Consumer.setWindow]
  | some w =>
    right
    refine ⟨w,rfl,fun as e has he => ?_⟩
    have hview := view_rateLimitedExecution intervalMs hc hk task
    have hwindow : (c.view key).window = some w := hw
    simp only [Limiter.trigger,hwindow] at hview
    obtain ⟨hwait,hnow⟩ := waiting_run (congrArg Limiter.window hview) rfl has he
    obtain ⟨hends,hstarts⟩ := waiting_ends intervalMs hwait rfl
    exact ⟨(congrArg Limiter.now hview).ge.trans hnow,hends,hstarts⟩

variable (hw : c.rateLimitWindows key = none) (hk : key ∈ objectPrototype)

include hw hk

theorem inherited_trigger (task : τ) :
    (c.rateLimitedExecution intervalMs key task).starts = c.starts ∧
      (c.rateLimitedExecution intervalMs key task).rateLimitWindows = c.rateLimitWindows := by
  simp only [Consumer.rateLimitedExecution,Consumer.lookup,hw,hk,if_true]
  split
  · exact ⟨rfl,rfl⟩
  · exact ⟨rfl,rfl⟩

theorem inherited_step {a : Action τ}
    (h : c.step intervalMs a = some d) : d.rateLimitWindows key = none := by
  cases a with
  | elapse ms =>
    cases h
    exact hw
  | trigger k task =>
    cases h
    by_cases hne : k = key
    · subst hne
      rw [(inherited_trigger hw hk task).2]
      exact hw
    · rw [window_view,view_rateLimitedExecution_ne intervalMs hne task]
      exact hw
  | timeout k =>
    have hne : k ≠ key := by
      rintro rfl
      simp [Consumer.step,Consumer.windowEnds,hw] at h
    rw [window_view,(windowEnds_keeps h).2 key hne]
    exact hw
  | complete k =>
    simp only [Consumer.step] at h
    split_ifs at h
    cases h
    exact hw

theorem inherited_run {as : List (Action τ)}
    (h : (consumers intervalMs).run c as = some d) : d.rateLimitWindows key = none := by
  induction as generalizing c with
  | nil =>
    cases h
    exact hw
  | cons a as ih =>
    obtain ⟨u,hu,h⟩ := (System.run_cons _).mp h
    exact ih (inherited_step hw hk hu) h

theorem inherited_unanswered (task : τ) :
    ¬Answered intervalMs c key task := by
  intro hanswered
  rcases hanswered _ rfl with hstarts | ⟨w,hsome,-⟩
  · rw [(inherited_trigger hw hk task).1] at hstarts
    simpa using congrArg List.length hstarts
  · rw [hw] at hsome
    cases hsome

end Triggers

section Runs

variable {c : Consumer τ} {intervalMs now : ℕ} {as : List (Action τ)}

structure RateLimited (intervalMs now : ℕ) (as : List (Action τ)) (c : Consumer τ) : Prop where
  spaced : ∀ key, ((c.view key).starts.map (·.2)).Pairwise fun a b => a + intervalMs ≤ b
  answered : ∀ before key task after b, as = before ++ .trigger key task :: after →
    (consumers intervalMs).run (.opening now) before = some b → Answered intervalMs b key task
  independent : ∀ key, ∃ d,
    (consumers intervalMs).run (.opening now) (as.filter fun a => (a.event key).isSome) = some d ∧
      d.view key = c.view key

theorem filterMap_filter_event (as : List (Action τ)) (key : String) :
    (as.filter fun a => (a.event key).isSome).filterMap (Action.event key) = as.filterMap
    (Action.event key) := by
  rw [List.filterMap_filter]
  refine List.filterMap_congr fun a _ => ?_
  cases a.event key with
  | none => rfl
  | some e => rfl

theorem rate_limited_iff (intervalMs now : ℕ) (as : List (Action τ)) (c : Consumer τ)
    (h : (consumers intervalMs).run (.opening now) as = some c) :
    RateLimited intervalMs now as c ↔ ∀ key task, .trigger key task ∈ as → key ∉ objectPrototype := by
  constructor
  · intro hlimited key task hmem hk
    obtain ⟨before,after,rfl⟩ := List.append_of_mem hmem
    obtain ⟨b,hb,-⟩ := (consumers intervalMs).run_split h
    have hwindow : b.rateLimitWindows key = none := inherited_run rfl hk hb
    exact inherited_unanswered hwindow hk task (hlimited.answered before key task after b rfl hb)
  · intro hplain
    have has : ∀ a ∈ as, a.Plain := by
      rintro (_ | ⟨key,task⟩ | _ | _) ha
      · trivial
      · exact hplain key task ha
      · trivial
      · trivial
    have hclean : (Consumer.opening now : Consumer τ).Clean := fun _ => rfl
    refine ⟨fun key => ?_,?_,fun key => ?_⟩
    · exact ((paced_opening now).run (run_view hclean has h)).spaced
    · rintro before key task after b rfl hb
      have hbefore : ∀ a ∈ before, a.Plain := fun a ha => has a (List.mem_append_left _ ha)
      exact (run_clean hclean hbefore hb).answered (hplain key task (by simp)) task
    · have hfiltered : ∀ a ∈ as.filter fun a => (a.event key).isSome, a.Plain :=
        fun a ha => has a (List.mem_filter.mp ha).1
      refine run_own hclean hfiltered (fun a ha => (List.mem_filter.mp ha).2) ?_
      rw [filterMap_filter_event]
      exact run_view hclean has h

def quietRun : List (Action ℕ) :=
  [.trigger "user" 1,.elapse 10,.trigger "user" 2,.trigger "other" 3,.elapse 30,.timeout "user",
    .complete "user"]

theorem rate_limited_iff_quiet :
    ∃ c, (consumers 30).run (.opening 0) quietRun = some c ∧ RateLimited 30 0 quietRun c ∧
      c.starts = [("user",1,0),("other",3,10),("user",1,40)] := by
  refine ⟨_,rfl,(rate_limited_iff 30 0 quietRun _ rfl).mpr ?_,rfl⟩
  intro key task hmem
  simp only [quietRun,List.mem_cons,Action.trigger.injEq,reduceCtorEq,false_or,or_false,
    List.not_mem_nil] at hmem
  rcases hmem with ⟨rfl,-⟩ | ⟨rfl,-⟩ | ⟨rfl,-⟩
  · decide
  · decide
  · decide

theorem constructor_never_started :
    ∃ c, (consumers 30).run (.opening 0) [.trigger "constructor" 1,.elapse 30] = some c ∧
      ¬RateLimited 30 0 [.trigger "constructor" 1,.elapse 30] c ∧ c.starts = ([] : List (String × ℕ × ℕ)) := by
  refine ⟨_,rfl,fun hlimited => ?_,rfl⟩
  exact inherited_unanswered rfl (by decide) 1 (hlimited.answered [] "constructor" 1 _ _ rfl rfl)

end Runs

end Jitsu.Rotor.PriorityConsumer
