import Jitsu.Warehouse.LocalDedup

namespace Jitsu.Warehouse

open Lib Program Program.Prog

variable {F T : Type}

namespace DedupState

structure Fresh (s : DedupState F T) : Prop where
  lines : s.linesByPK = .empty
  discriminated : s.linesByPKDisc = .empty
  skip : s.skipLines = ∅
  events : s.eventsInBatch = 0

end DedupState

namespace DedupSettings

open DedupState

variable {cfg : DedupSettings F T} {s : DedupState F T} {i : Bool}

def Sound (cfg : DedupSettings F T) (f : BatchFile F T) : Prop :=
  f.encoderFailed = false → cfg.Regular f.lines → cfg.Deduplicated f

structure Inv (cfg : DedupSettings F T) (s : DedupState F T) : Prop where
  loaded : ∀ f ∈ s.loaded, cfg.Sound f
  events : ∀ lines, s.file = some lines → s.eventsInBatch = lines.length % 2 ^ 32
  tracked : ∀ lines, s.file = some lines → s.encoderFailed = false → cfg.Regular lines → cfg.Tracked lines s
  started : s.inited = false → s.Fresh ∧ ∀ lines, s.file = some lines → lines = []

structure Flushing (cfg : DedupSettings F T) (i : Bool) (s : DedupState F T) : Prop where
  loaded : ∀ f ∈ s.loaded, cfg.Sound f
  lines : s.linesByPK = .empty ∧ s.linesByPKDisc = .empty
  file : ∀ lines, s.file = some lines → cfg.Sound ⟨lines,s.skipLines,s.encoderFailed⟩
  inited : s.inited = i

theorem Inv.opened (h : cfg.Inv s) (hf : s.Fresh) :
    cfg.Inv { s with file := some [], encoderFailed := false } where
  loaded := h.loaded
  events lines hl := by
    cases hl
    exact hf.events
  tracked lines hl _ _ := by
    cases hl
    exact tracked_nil hf.lines hf.discriminated hf.skip
  started hi := ⟨⟨hf.lines,hf.discriminated,hf.skip,hf.events⟩,fun lines hl => by cases hl; rfl⟩

theorem attempt_spec {e : DedupFailure} {P E : DedupState F T → Prop} (h : ∀ s, P s → E s) :
    Spec P (attempt e) (fun _ => P) E := spec_attempt h

theorem initTmpFile_spec : Spec (fun s => (cfg.Inv s ∧ s.Fresh) ∧ s.inited = i) initTmpFile
    (fun _ s => cfg.Inv s ∧ s.inited = i) (fun s => cfg.Inv s ∧ s.inited = i) := by
  refine spec_with fun s hs => spec_get_bind (spec_ite (fun _ => spec_done ⟨hs.1.1,hs.2⟩) fun _ => ?_)
  refine spec_bind (attempt_spec (P := (· = s)) ?_) fun _ => spec_update ⟨hs.1.1.opened hs.1.2,hs.2⟩
  rintro _ rfl
  exact ⟨hs.1.1,hs.2⟩

theorem init_spec : Spec cfg.Inv init (fun _ s => cfg.Inv s ∧ s.inited = true) cfg.Inv := by
  refine spec_with fun s hs => spec_get_bind ?_
  cases hi : s.inited with
  | true => exact spec_done ⟨hs,hi⟩
  | false =>
    have hfile := initTmpFile_spec.starting ⟨⟨hs,(hs.started hi).1⟩,hi⟩
    refine spec_bind (spec_conseq hfile (fun _ h => h) (fun _ _ h => h) fun _ h => h.1) fun _ => ?_
    refine spec_bind (attempt_spec fun _ h => h.1) fun _ => spec_modify fun s h => ⟨?_,rfl⟩
    exact ⟨h.1.loaded,h.1.events,fun lines hl he hr => ⟨(h.1.tracked lines hl he hr).winners,
      (h.1.tracked lines hl he hr).discriminators⟩,nofun⟩

theorem Inv.flushing (h : cfg.Inv s) (hp : cfg.Prints) (hi : s.inited = i) : cfg.Flushing i (forgetLines s) :=
  ⟨h.loaded,⟨rfl,rfl⟩,fun lines hl he hr => (h.tracked lines hl he hr).deduplicated hp hr,hi⟩

theorem Flushing.loadFile (h : cfg.Flushing i s) : cfg.Flushing i (loadFile s) := by
  refine ⟨fun f hf => ?_,h.lines,h.file,h.inited⟩
  rcases List.mem_append.mp hf with hf | hf
  · exact h.loaded f hf
  · rw [Option.mem_toList] at hf
    obtain ⟨lines,hl,rfl⟩ := Option.map_eq_some_iff.mp hf
    exact h.file lines hl

theorem Flushing.close (h : cfg.Flushing i s) :
    (cfg.Inv (closeFile s) ∧ (closeFile s).Fresh) ∧ (closeFile s).inited = i := by
  have hfresh : (closeFile s).Fresh := ⟨h.lines.1,h.lines.2,rfl,rfl⟩
  exact ⟨⟨⟨h.loaded,nofun,nofun,fun _ => ⟨hfresh,nofun⟩⟩,hfresh⟩,h.inited⟩

theorem flushing_spec : Spec (cfg.Flushing i) flushing (fun _ => cfg.Flushing i) (cfg.Flushing i) := by
  refine spec_with fun s hs => spec_get_bind (spec_ite (fun _ => ?_) fun _ => spec_done hs)
  have hstep (e : DedupFailure) : Spec (· = s) (attempt e) (fun _ => (· = s)) (cfg.Flushing i) :=
    attempt_spec fun _ h => h ▸ hs
  refine spec_bind (hstep .file) fun _ => spec_bind (hstep .database) fun _ => ?_
  exact spec_bind (hstep .file) fun _ => spec_bind (hstep .database) fun _ => spec_update hs.loadFile

def Safe (cfg : DedupSettings F T) (s : DedupState F T) : Prop := ∀ f ∈ s.loaded, cfg.Sound f

theorem attempted_spec {m : Dedup F T Unit} {P E E' : DedupState F T → Prop} {Q : Unit → DedupState F T → Prop}
    (h : Spec P m Q E) (he : ∀ s, E s → E' s) :
    Spec P (attempted m) (fun err s => if err.isSome then E s else Q () s) E' := by
  refine spec_catching (E := E) ?_ (fun e => ?_) he
  · exact spec_bind h fun _ => spec_pure fun _ h => h
  · exact spec_pure fun _ h => h

theorem flushBatchFile_spec (hp : cfg.Prints) : Spec (fun s => cfg.Inv s ∧ s.inited = i) flushBatchFile
    (fun _ s => (cfg.Inv s ∧ s.Fresh) ∧ s.inited = i) cfg.Safe := by
  refine spec_with fun s hs => spec_modify_bind ?_
  refine spec_bind ((attempted_spec flushing_spec fun _ h => h.loaded).starting (hs.1.flushing hp hs.2))
    fun err => spec_with fun s hs => spec_get_bind (spec_modify_bind ?_)
  have hflushing : cfg.Flushing i s := by
    split at hs <;> exact hs
  exact spec_ite (fun _ => spec_done hflushing.close) fun _ => spec_raise hflushing.close.1.1.loaded

theorem flushFull_spec (hp : cfg.Prints) : Spec (fun s => cfg.Inv s ∧ s.inited = i) cfg.flushFull
    (fun _ s => cfg.Inv s ∧ s.inited = i) cfg.Safe := by
  refine spec_with fun s hs => spec_get_bind (spec_ite (fun _ => ?_) fun _ => spec_done hs)
  refine spec_bind ((flushBatchFile_spec hp).starting hs) fun err => ?_
  refine spec_ite (fun _ => spec_pure fun _ h => ⟨h.1.1,h.2⟩) fun _ => ?_
  refine spec_conseq (attempted_spec initTmpFile_spec fun _ h => h.1.loaded) (fun _ h => h) (fun err s h => ?_)
    fun _ h => h
  split at h <;> exact h

structure SameFile (s s' : DedupState F T) : Prop where
  loaded : s'.loaded = s.loaded
  file : s'.file = s.file
  events : s'.eventsInBatch = s.eventsInBatch
  encoder : s'.encoderFailed = s.encoderFailed
  inited : s'.inited = s.inited

variable {s' : DedupState F T}

theorem noteDiscriminator_same {n : ℕ} {pk : String} {v : Value F T}
    (h : cfg.noteDiscriminator n pk v s = some s') : SameFile s s' := by
  unfold noteDiscriminator at h
  split at h
  · cases h
    exact ⟨rfl,rfl,rfl,rfl,rfl⟩
  · split at h
    · cases h
    · split at h <;>
      · cases h
        exact ⟨rfl,rfl,rfl,rfl,rfl⟩

theorem noteLine_same {x : Object F T} (h : cfg.noteLine x s = .ok s') :
    SameFile s s' := by
  unfold noteLine at h
  split at h
  · cases h
  · dsimp only at h
    split at h
    · cases h
      exact ⟨rfl,rfl,rfl,rfl,rfl⟩
    · split at h
      · next hnote =>
        cases h
        exact noteDiscriminator_same hnote
      · cases h

theorem Inv.failed (h : cfg.Inv s) (hi : s.inited = true) (hs : SameFile s s') :
    cfg.Inv { s' with encoderFailed := true } where
  loaded f hf := h.loaded f (hs.loaded ▸ hf)
  events lines hl := hs.events.trans (h.events lines (hs.file.symm.trans hl))
  tracked _ _ he := nomatch he
  started hn := by cases (hs.inited.trans hi).symm.trans hn

theorem Inv.written {x : Object F T} (h : cfg.Inv s) (hp : cfg.Prints)
    (hi : s.inited = true) (hnote : cfg.noteLine x s = .ok s') (he : s'.encoderFailed = false) :
    cfg.Inv { s' with
      file := s'.file.map (· ++ [x])
      eventsInBatch := (s'.eventsInBatch + 1) % 2 ^ 32 } := by
  have hs := noteLine_same hnote
  refine ⟨fun f hf => h.loaded f (hs.loaded ▸ hf),fun lines hl => ?_,fun lines hl _ hr => ?_,fun hn => ?_⟩
  · obtain ⟨before,hbefore,rfl⟩ := Option.map_eq_some_iff.mp hl
    have hevents := h.events before (hs.file.symm.trans hbefore)
    rw [hs.events,hevents,List.length_append,List.length_singleton,Nat.mod_add_mod]
  · obtain ⟨before,hbefore,rfl⟩ := Option.map_eq_some_iff.mp hl
    have hfile := hs.file.symm.trans hbefore
    have htracked := h.tracked before hfile (hs.encoder.symm.trans he) (hr.mono (List.sublist_append_left _ _))
    have hafter := htracked.noteLine hp hr (h.events before hfile) hnote
    exact ⟨hafter.winners,hafter.discriminators⟩
  · cases (hs.inited.trans hi).symm.trans hn

theorem deduplicate_spec (hp : cfg.Prints) (x : Object F T) : Spec (fun s => cfg.Inv s ∧ s.inited = true)
    (cfg.deduplicate x) (fun _ => cfg.Inv) cfg.Safe := by
  refine spec_with fun s hs => spec_get_bind ?_
  cases hnote : cfg.noteLine x s with
  | error e => exact spec_ite (fun _ => spec_raise hs.1.loaded) fun _ => spec_done hs.1
  | ok noted =>
    refine spec_modify_bind (spec_get_bind (spec_ite (fun _ => ?_) fun hok => ?_))
    · exact spec_modify_bind (spec_done (hs.1.failed hs.2 (noteLine_same hnote)))
    · rw [not_or,Bool.not_eq_true] at hok
      exact spec_modify_bind (spec_done (hs.1.written hp hs.2 hnote hok.1))

variable [DecidableEq F]

theorem writeToBatchFile_spec (hp : cfg.Prints) (dwh : DWHEnvelope F T) :
    Spec (fun s => cfg.Inv s ∧ s.inited = true) (cfg.writeToBatchFile dwh) (fun _ => cfg.Inv) cfg.Safe := by
  refine spec_bind (flushFull_spec hp) fun err => spec_ite (fun _ => spec_pure fun _ h => h.1) fun _ => ?_
  refine spec_with fun s hs => spec_get_bind (spec_modify_bind ?_)
  refine (deduplicate_spec hp _).starting ⟨⟨hs.1.loaded,hs.1.events,fun lines hl he hr => ?_,?_⟩,hs.2⟩
  · have h := hs.1.tracked lines hl he hr
    exact ⟨h.winners,h.discriminators⟩
  · intro hi
    cases hs.2.symm.trans hi

theorem consume_spec (hp : cfg.Prints) (a : Arrival F T) :
    Spec cfg.Inv (cfg.consume a) (fun _ => cfg.Inv) cfg.Safe := by
  refine spec_bind (attempted_spec init_spec fun _ h => h.loaded) fun err => ?_
  refine spec_ite (fun herr => spec_pure fun s h => ?_) fun herr => ?_
  · rw [if_pos herr] at h
    exact h
  · cases cfg.preprocess a.skipTypeHints a.object with
    | error e =>
      refine spec_pure fun s h => ?_
      rw [if_neg herr] at h
      exact h.1
    | ok dwh =>
      refine spec_bind (spec_pre (writeToBatchFile_spec hp dwh) fun s h => ?_) fun err => ?_
      · rw [if_neg herr] at h
        exact h
      · refine spec_bind (Q := fun _ => cfg.Inv) (spec_modify fun s h => ?_) fun _ => spec_pure fun _ h => h
        refine ⟨h.loaded,h.events,fun lines hl he hr => ?_,fun hi => ?_⟩
        · have h := h.tracked lines hl he hr
          exact ⟨h.winners,h.discriminators⟩
        · obtain ⟨hf,hl⟩ := h.started hi
          exact ⟨⟨hf.lines,hf.discriminated,hf.skip,hf.events⟩,hl⟩

theorem consumeAll_spec (hp : cfg.Prints) (arrivals : List (Arrival F T)) :
    Spec cfg.Inv (cfg.consumeAll arrivals) (fun _ => cfg.Inv) cfg.Safe := by
  induction arrivals with
  | nil => exact spec_pure fun _ h => h
  | cons a rest ih => exact spec_bind (consume_spec hp a) fun _ => ih

theorem load_spec (hp : cfg.Prints) (arrivals : List (Arrival F T)) :
    Spec cfg.Inv (cfg.load arrivals) (fun _ => cfg.Inv) cfg.Safe := by
  refine spec_bind (consumeAll_spec hp arrivals) fun _ => spec_with fun s hs => spec_get_bind ?_
  refine spec_ite (fun _ => ?_) fun _ => spec_done hs
  exact spec_conseq ((flushBatchFile_spec hp).starting ⟨hs,rfl⟩) (fun _ h => h)
    (fun _ _ h => h.1.1) fun _ h => h

omit [DecidableEq F] in
theorem opening_inv : cfg.Inv cfg.opening := ⟨nofun,nofun,nofun,fun _ => ⟨⟨rfl,rfl,rfl,rfl⟩,nofun⟩⟩

end DedupSettings

theorem local_deduplication [DecidableEq F] (cfg : DedupSettings F T) (hp : cfg.Prints)
    (arrivals : List (Arrival F T)) (replies : List Bool) :
    ∀ f ∈ (final (cfg.load arrivals) replies cfg.opening).loaded, f.encoderFailed = false →
      cfg.Regular f.lines → cfg.Deduplicated f :=
  (DedupSettings.load_spec hp arrivals).final (J := cfg.Safe) (fun _ _ h => h.loaded) (fun _ h => h)
    DedupSettings.opening_inv

def printed : Value ℤ ℤ → String
  | .null => "<nil>"
  | .bool b => toString b
  | .int _ i => toString i
  | .float _ f => toString f
  | .time t => toString t
  | .string s => s
  | _ => ""

def dedupCodec : Codec ℤ ℤ where
  formatFloat := toString
  parseFloat _ := none
  atoi _ := none
  ofInt _ i := i
  toInt f := f
  toFloat64 _ f := f
  formatTime t := toString t
  reformatTime _ := none
  sprint := printed
  marshal _ := some "json"
  marshal_object _ _ := rfl

def dedupSettings (pkColumns : List String) (keyed : pkColumns ≠ []) (discriminatorColumn : Option String) :
    DedupSettings ℤ ℤ where
  options :=
    { sqlAdapter := ⟨dedupCodec,fun t => some (Driver.postgres.typeName t),false⟩
      schemaFreeze := false
      maxColumnsCount := 10000
      unmappedDataColumn := "_unmapped_data" }
  columnName name := name
  getDataType _ := none
  isSQLTypeHintAllowed _ := false
  nameTransformer name := name
  omitNils := true
  customTypes := .empty
  notFlatteningKeys := []
  reformatTimeValue s :=
    if s = "2024-05-01T10:00:00.000100Z" then some 1714557600000100000
    else if s = "2024-05-01T10:00:00.000200Z" then some 1714557600000200000 else none
  parseInt64 s :=
    if s = "9223372036854775807" then some 9223372036854775807 else if s = "-2" then some (-2) else none
  parseFloat64 _ := none
  replacing := false
  schemaFromOptions := none
  existingTable := .empty
  pkColumns := pkColumns
  keyed := keyed
  discriminatorColumn := discriminatorColumn
  temporaryBatchSize := 0
  unixNano t := t
  rank f := some f
  encodes _ := true

def eventOf (key : String) (f : Field ℤ ℤ) : Arrival ℤ ℤ :=
  ⟨(OrderedMap.empty.set "id" (.value (.string "a"))).set key f,true⟩

def rowWith (key : String) (v : Value ℤ ℤ) : Object ℤ ℤ :=
  (OrderedMap.empty.set "id" (.string "a")).set key v

def timed : DedupSettings ℤ ℤ := dedupSettings ["id","at"] (by decide) none

def versioned : DedupSettings ℤ ℤ := dedupSettings ["id"] (by decide) (some "version")

theorem dedup_prints (pkColumns : List String) (keyed : pkColumns ≠ []) (discriminatorColumn : Option String) :
    (dedupSettings pkColumns keyed discriminatorColumn).Prints where
  null := rfl
  bool _ := rfl
  int _ := rfl
  float _ _ h := Int.repr_injective h
  float_text f := by
    refine ⟨DedupSettings.toString_int_ne_nil f,fun hmem => ?_⟩
    rcases mem_toString_int hmem with h | h <;> exact absurd h (by decide)
  time _ _ h := Int.repr_injective h
  time_text t := DedupSettings.toString_int_ne_nil t

def firstRow : Object ℤ ℤ := rowWith "at" (.time 1714557600000100000)

def laterRow : Object ℤ ℤ := rowWith "at" (.time 1714557600000200000)

def firstEvent : Arrival ℤ ℤ := eventOf "at" (.value (.string "2024-05-01T10:00:00.000100Z"))

def laterEvent : Arrival ℤ ℤ := eventOf "at" (.value (.string "2024-05-01T10:00:00.000200Z"))

def greatestVersion : Object ℤ ℤ := rowWith "version" (.int .int64 9223372036854775807)

def negativeVersion : Object ℤ ℤ := rowWith "version" (.int .int64 (-2))

def loadedFiles (cfg : DedupSettings ℤ ℤ) (arrivals : List (Arrival ℤ ℤ)) : List (BatchFile ℤ ℤ) :=
  (final (cfg.load arrivals) (List.replicate 20 true) cfg.opening).loaded

theorem repeated_regular : timed.Regular [firstRow,firstRow] := by
  have hid : DedupSettings.column [firstRow,firstRow] "id" = [.string "a",.string "a"] := rfl
  have hat : DedupSettings.column [firstRow,firstRow] "at" =
    [.time 1714557600000100000,.time 1714557600000100000] := rfl
  refine ⟨by decide,⟨fun col hc => ?_,fun _ col hc => ?_⟩,nofun⟩
  · simp only [timed,dedupSettings,List.mem_cons,List.not_mem_nil,or_false] at hc
    rcases hc with rfl | rfl
    · rw [hid]
      refine ⟨⟨.string,fun v hv => .inr ?_⟩,by simp⟩
      simp only [List.mem_cons,List.not_mem_nil,or_false,or_self] at hv
      exact hv ▸ .string "a"
    · rw [hat]
      refine ⟨⟨.time,fun v hv => .inr ?_⟩,by simp⟩
      simp only [List.mem_cons,List.not_mem_nil,or_false,or_self] at hv
      exact hv ▸ .time _
  · simp only [timed,dedupSettings,List.mem_cons,List.not_mem_nil,or_false] at hc
    rcases hc with rfl | rfl
    · rw [hid]
      refine ⟨fun s hs => ?_,by simp⟩
      simp only [List.mem_cons,List.not_mem_nil,or_false,or_self,Value.string.injEq] at hs
      rw [hs]
      decide
    · rw [hat]
      refine ⟨by simp,fun t u ht hu _ => ?_⟩
      simp only [List.mem_cons,List.not_mem_nil,or_false,or_self,Value.time.injEq] at ht hu
      rw [ht,hu]

theorem local_deduplication_timed :
    loadedFiles timed [firstEvent,firstEvent] = [⟨[firstRow,firstRow],{0},false⟩] ∧
    timed.Deduplicated ⟨[firstRow,firstRow],{0},false⟩ := by
  refine ⟨rfl,local_deduplication timed (dedup_prints _ _ _) [firstEvent,firstEvent] (List.replicate 20 true) _
    ?_ rfl repeated_regular⟩
  exact List.mem_singleton.mpr rfl

theorem distinct_keys_merged :
    loadedFiles timed [firstEvent,laterEvent] = [⟨[firstRow,laterRow],{0},false⟩] ∧
    ¬timed.Deduplicated ⟨[firstRow,laterRow],{0},false⟩ ∧
    loadedFiles versioned
      [eventOf "version" (.number "9223372036854775807"),eventOf "version" (.number "-2")] =
      [⟨[greatestVersion,negativeVersion],{0},false⟩] ∧
    ¬versioned.Deduplicated ⟨[greatestVersion,negativeVersion],{0},false⟩ := by
  refine ⟨rfl,fun h => ?_,rfl,fun h => ?_⟩
  · obtain ⟨n,a,b,ha,hb,hn,htuple⟩ := h.skipped 0 (by decide)
    match n with
    | 0 => exact hn (by decide)
    | 1 =>
      cases ha
      cases hb
      simp [DedupSettings.tuple,timed,dedupSettings,firstRow,laterRow,rowWith,Object.getN,
        OrderedMap.get_set] at htuple
    | n + 2 => cases hb
  · have hbest := (h.best 1 negativeVersion rfl (by decide) 0 greatestVersion rfl rfl).1 "version" rfl
    cases hbest with
    | int hle => exact absurd hle (by decide)

end Jitsu.Warehouse
