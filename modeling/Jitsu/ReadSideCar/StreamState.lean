import Jitsu.ReadSideCar.Coverage

namespace Jitsu.ReadSideCar

open Lib Transition

def StreamStatesBehind (s : SideCar) : Prop :=
  ∀ w ∈ s.writes, ∀ name ∈ w.origin, ∀ id ∈ s.arrived name, id < w.clock →
    ∃ c ∈ w.committed, c.stream = name ∧ id ∈ c.chunk.rows

def Uncancelled (s : SideCar) : Action → Prop
  | .message (.finished d true) _ => ∀ st ∈ s.streams.get d.key, st.status ≠ .cancelled
  | _ => True

def KeepsStream (s : SideCar) (a : Action) : Prop := a.Worded ∧ Uncancelled s a

def PlainNames (cfg : Config) : Prop :=
  ∀ name ∈ cfg.catalog.entries.map Prod.fst, name ≠ legacyState ∧ name ≠ globalState

variable (cfg : Config)

theorem stream_state_behind_data (hplain : PlainNames cfg) {s : SideCar}
    (hs : (system cfg).Reachable KeepsStream s) : StreamStatesBehind s ∧ s.commits.Pairwise Spares := by
  have hown : Owning cfg (fun o n => o = some n) := by
    refine ⟨fun o n hn => (Option.some.inj hn).symm,fun o n _ ho => hplain o ?_⟩
    obtain ⟨mode,hmode⟩ := Option.isSome_iff_exists.mp ho
    exact List.mem_map_of_mem (cfg.catalog.get_mem hmode)
  have hinv : Tracked cfg s ∧ Covered (fun o n => o = some n) s := by
    refine hs.invariant (I := fun s => Tracked cfg s ∧ Covered (fun o n => o = some n) s) ?_ ?_
    · rintro s rfl
      exact ⟨Tracked.start,nofun⟩
    · rintro s a t ⟨ht,hc⟩ ⟨hworded,hcancelled⟩ hstep
      have hmove := step_move cfg hstep
      refine ⟨ht.move hworded hmove,Covered.move hown ht hc hworded ?_ ?_ hmove⟩
      · rintro d reply st rfl hst _
        exact hcancelled st hst
      · rintro line row reply n rfl _ _ _ ⟨⟩
  refine ⟨fun w hw name hname id hid hlt => ?_,hinv.1.spared⟩
  have hmem := (hinv.2 w hw name hname).2 id hid hlt
  obtain ⟨c,hc,hrows⟩ := List.mem_flatMap.mp hmem
  obtain ⟨hc,hstream⟩ := List.mem_filter.mp hc
  exact ⟨c,hc,by simpa using hstream,hrows⟩

instance : DecidablePred StreamStatesBehind := fun _ => inferInstanceAs (Decidable (∀ _ ∈ _, _))

instance (earlier later : Commit) : Decidable (Spares earlier later) :=
  inferInstanceAs (Decidable (_ → _ → _))

instance (s : SideCar) : DecidablePred (Uncancelled s)
  | .message (.finished _ true) _ => inferInstanceAs (Decidable (∀ _ ∈ _, _))
  | .message (.finished _ false) _ | .message (.record _ _) _ | .message (.state _ _) _
  | .message (.started _) _ | .message (.traceError _ _ _) _ | .message (.log _ _) _ | .message .ignored _
  | .cancel | .endOfInput _ | .close _ _ | .report | .crash => isTrue trivial

instance (s : SideCar) (a : Action) : Decidable (KeepsStream s a) := inferInstanceAs (Decidable (_ ∧ _))

def sampleConfig (name : String) (mode : SyncMode) : Config where
  catalog := OrderedMap.empty.set name mode
  initialState := ""
  fullSync := false
  packageName := "airbyte/source-postgres"
  taskTimeoutHours := 24
  logLevel := .info
  dbLogLevel := .info

def accepting : Reply := ⟨none,none,none,true,true⟩

def users : Descriptor := ⟨"","users"⟩

def usersState (line : String) : Message := .state line (.stream users line)

def twoCheckpoints : List Action :=
  [.message (.record users 10) accepting,.message (usersState "1") accepting,
    .message (.record users 10) accepting,.message (usersState "2") accepting,
    .message (.finished users true) accepting]

theorem stream_state_behind_data_twoCheckpoints :
    ∃ s, (system (sampleConfig "users" .incremental)).Reachable KeepsStream s ∧ s.writes.length = 2 ∧
      StreamStatesBehind s ∧ s.commits.Pairwise Spares := by
  have hrun : (((system (sampleConfig "users" .incremental)).guard KeepsStream).run SideCar.start
      twoCheckpoints).any (fun s => s.writes.length = 2) := by decide +kernel
  simp only [Option.any_eq_true,decide_eq_true_eq] at hrun
  obtain ⟨s,hs,hwrites⟩ := hrun
  have hr := (System.Reachable.initial rfl).guarded hs
  have hplain : PlainNames (sampleConfig "users" .incremental) := by
    intro name hname
    cases List.mem_singleton.mp hname
    decide
  exact ⟨s,hr,hwrites,stream_state_behind_data _ hplain hr⟩

def cancelledThenComplete : List Action :=
  [.message (.record users 10) accepting,.message (usersState "1") accepting,.cancel,
    .message (.finished users false) accepting,.message (.finished users true) accepting]

def emptyTrace : List Action :=
  [.message (.record users 10) accepting,.message (.traceError users "" "") accepting,
    .message (usersState "1") accepting,.message (.record users 10) accepting,
    .message (usersState "2") accepting]

def emptyCompleteError : List Action :=
  [.message (.record users 10) accepting,.message (usersState "1") { accepting with complete := some "" }]

def reservedName : List Action :=
  [.message (.record ⟨"","_GLOBAL_STATE"⟩ 10) { accepting with consume := some "refused" },
    .message (.state "1" (.stream ⟨"","_GLOBAL_STATE"⟩ "1")) accepting,
    .message (.finished ⟨"","_GLOBAL_STATE"⟩ true) accepting]

theorem stream_state_ahead_or_overwritten :
    ((system (sampleConfig "users" .fullRefresh)).run SideCar.start cancelledThenComplete).any
      (fun s => ¬StreamStatesBehind s) ∧
    ((system (sampleConfig "users" .incremental)).run SideCar.start emptyTrace).any
      (fun s => ¬s.commits.Pairwise Spares) ∧
    ((system (sampleConfig "users" .incremental)).run SideCar.start emptyCompleteError).any
      (fun s => ¬StreamStatesBehind s) ∧
    ((system (sampleConfig "_GLOBAL_STATE" .fullRefresh)).run SideCar.start reservedName).any
      (fun s => ¬StreamStatesBehind s) := by
  decide +kernel

end Jitsu.ReadSideCar
