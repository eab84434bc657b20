import Jitsu.Destination.Rows
import Jitsu.Lib.Overlay

namespace Jitsu.Destination

open Lib Ingest Engine Checked

def converts (keepOriginalNames : Bool) : Json → Json :=
  if keepOriginalNames then id else toSnakeCase

def merge (fields writes : Fields) : Fields := writes.foldl (fun target e => assign target e.1 e.2) fields

theorem get_assign {name : String} (hn : name ≠ "__proto__") (fields : Fields) (key : String) (value : Json) :
    Fields.get (assign fields key value) name = if key = name then some value else Fields.get fields name := by
  unfold assign
  split
  case isTrue hk => rw [if_neg (fun h => hn (h.symm.trans hk))]
  case isFalse => exact Entries.find_put key name value fields

theorem get_assign_proto (fields : Fields) (key : String) (value : Json) :
    Fields.get (assign fields key value) "__proto__" = Fields.get fields "__proto__" := by
  unfold assign
  split
  case isTrue => rfl
  case isFalse hk => exact (Entries.find_put key "__proto__" value fields).trans (if_neg hk)

theorem get_merge {name : String} (hn : name ≠ "__proto__") (fields writes : Fields) :
    Fields.get (merge fields writes) name = (Entries.latest name writes).or (Fields.get fields name) := by
  induction writes generalizing fields with
  | nil => rfl
  | cons e rest ih =>
    have hstep : merge fields (e :: rest) = merge (assign fields e.1 e.2) rest := rfl
    rw [hstep,ih,get_assign hn,Entries.latest,Option.or_assoc]
    by_cases he : e.1 = name
    · simp [he]
    · simp [he]

theorem get_merge_proto (fields writes : Fields) :
    Fields.get (merge fields writes) "__proto__" = Fields.get fields "__proto__" := by
  induction writes generalizing fields with
  | nil => rfl
  | cons e rest ih => exact (ih _).trans (get_assign_proto fields e.1 e.2)

theorem merge_append (fields writes more : Fields) :
    merge fields (writes ++ more) = merge (merge fields writes) more := List.foldl_append

theorem nodup_merge {fields : Fields} (h : (fields.map Prod.fst).Nodup) (writes : Fields) :
    ((merge fields writes).map Prod.fst).Nodup := by
  refine List.foldlRecOn (motive := fun target : Fields => (target.map Prod.fst).Nodup) writes _ h
    fun target ht e _ => ?_
  unfold assign
  split
  · exact ht
  · exact Entries.nodup_put ht

theorem toSnakeFields_eq (r fields : Fields) :
    toSnakeFields r fields = merge r (fields.map (fun e => (idToSnakeCaseFast e.1,toSnakeCase e.2))) := by
  induction fields generalizing r with
  | nil => rfl
  | cons e rest ih =>
    obtain ⟨k,v⟩ := e
    rw [toSnakeFields,ih]
    rfl

def entriesOf : Option Json → Fields
  | some (.obj fields) => fields
  | some (.arr items) => indexed items
  | _ => []

def Transfer.writes (keepOriginalNames : Bool) (t : Transfer) : Fields :=
  ((entriesOf t.source).filter (fun e => !t.omitted.contains e.1)).map
    (fun e => (renames keepOriginalNames e.1,converts keepOriginalNames e.2))

section

variable (js : Engine)

def assignAll (target : Json) (writes : Fields) : Except String Json :=
  writes.foldlM (fun target e => js.setProperty target e.1 e.2) target

theorem assignAll_obj (fields writes : Fields) :
    assignAll js (.obj fields) writes = .ok (.obj (merge fields writes)) := by
  induction writes generalizing fields with
  | nil => rfl
  | cons e rest ih => exact ih (assign fields e.1 e.2)

variable {x : Json}

theorem assignAll_append {target : Json} {left right : Fields} :
    assignAll js target (left ++ right) = .ok x ↔
      ∃ y, assignAll js target left = .ok y ∧ assignAll js y right = .ok x := by
  unfold assignAll
  rw [List.foldlM_append,bind_eq_ok]

theorem transferEach_eq (rename : String → String) (convert : Json → Json) (skipped : List String)
    (target : Json) (source : Fields) :
    js.transferEach rename convert skipped target source = assignAll js target
      ((source.filter (fun e => !skipped.contains e.1)).map (fun e => (rename e.1,convert e.2))) := by
  induction source generalizing target with
  | nil => rfl
  | cons e rest ih =>
    obtain ⟨k,v⟩ := e
    unfold Engine.transferEach
    by_cases hk : skipped.contains k
    · rw [if_pos hk,ih,List.filter_cons_of_neg (by simpa using hk)]
    · rw [if_neg hk,List.filter_cons_of_pos (by simpa using hk)]
      exact bind_congr fun next => ih next

variable {js} {keep : Bool}

theorem transferFunc_eq_ok {target : Json} {t : Transfer} :
    transferFunc js keep target t.source t.omitted = .ok x ↔
      t.source ≠ some .null ∧ assignAll js target (t.writes keep) = .ok x := by
  have hkeep : transferFunc js keep target t.source t.omitted =
      js.transferAs (renames keep) (converts keep) target t.source t.omitted := by
    cases keep <;> rfl
  rw [hkeep]
  unfold Engine.transferAs Transfer.writes entriesOf
  split
  case h_1 hs => simp [hs]
  case h_2 fields hs => simp [hs,transferEach_eq]
  case h_3 items hs => simp [hs,transferEach_eq]
  case h_4 hnull hobj harr =>
    refine ⟨fun h => ⟨fun hn => hnull hn,?_⟩,fun h => ?_⟩
    · split
      · exact absurd ‹_› (hobj _)
      · exact absurd ‹_› (harr _)
      · exact h
    · revert h
      split
      · exact absurd ‹_› (hobj _)
      · exact absurd ‹_› (harr _)
      · exact fun h => h.2

variable {fields : Fields}

theorem transferFunc_obj {t : Transfer} :
    transferFunc js keep (.obj fields) t.source t.omitted = .ok x ↔
      t.source ≠ some .null ∧ x = .obj (merge fields (t.writes keep)) := by
  rw [transferFunc_eq_ok,assignAll_obj,Except.ok.injEq,eq_comm (a := x)]

theorem transferAll_obj {ts : List Transfer} :
    ts.foldlM (fun row t => transferFunc js keep row t.source t.omitted) (.obj fields) = .ok x ↔
      (∀ t ∈ ts, t.source ≠ some .null) ∧ x = .obj (merge fields (ts.flatMap (Transfer.writes keep))) := by
  induction ts generalizing fields with
  | nil =>
    rw [List.foldlM_nil,pure_eq_ok,eq_comm]
    simp [merge]
  | cons t ts ih =>
    rw [List.foldlM_cons,bind_eq_ok]
    simp only [transferFunc_obj]
    have hmerge : merge fields ((t :: ts).flatMap (Transfer.writes keep)) =
        merge (merge fields (t.writes keep)) (ts.flatMap (Transfer.writes keep)) := by
      rw [List.flatMap_cons,merge_append]
    rw [hmerge,List.forall_mem_cons,and_assoc,← ih]
    constructor
    · rintro ⟨_,⟨ht,rfl⟩,h⟩
      exact ⟨ht,h⟩
    · rintro ⟨ht,h⟩
      exact ⟨_,⟨ht,rfl⟩,h⟩

variable {name : String}

theorem transferValueFunc_obj {source : Option Json} :
    transferValueFunc js keep (.obj fields) name source = .ok x ↔
      x = .obj (merge fields (source.toList.map (fun v => (name,converts keep v)))) := by
  have hkeep : transferValueFunc js keep (.obj fields) name source =
      js.transferValueAs (converts keep) (.obj fields) name source := by
    cases keep <;> rfl
  rw [hkeep,eq_comm (a := x)]
  cases source with
  | none => exact ⟨Except.ok.inj,congrArg _⟩
  | some value => exact ⟨Except.ok.inj,congrArg _⟩

theorem within_obj {inner : Json} {f : Json → Except String Json}
    (hi : Fields.get fields name = some inner) (hn : name ≠ "__proto__") :
    js.within (.obj fields) name f = .ok x ↔
      ∃ changed, f inner = .ok changed ∧ x = .obj (Fields.set fields name changed) := by
  have hset : ∀ changed,
      js.setProperty (.obj fields) name changed = .ok (.obj (Fields.set fields name changed)) := by
    intro changed
    have hassign : assign fields name changed = Fields.set fields name changed := if_neg hn
    exact hassign ▸ rfl
  have hp : property (some (.obj fields)) name = some inner := hi
  unfold Engine.within
  rw [hp]
  dsimp only
  rw [bind_eq_ok]
  simp only [hset,Except.ok.injEq,eq_comm (a := x)]

theorem overlay_obj (hn : name ≠ "__proto__") {ts : List Transfer}
    {inner : Json} (hi : Fields.get fields name = some inner) :
    ts.foldlM (fun target t => js.within target name
        (fun inner => transferFunc js keep inner t.source t.omitted)) (.obj fields) = .ok x ↔
      (∀ t ∈ ts, t.source ≠ some .null) ∧
        ∃ changed, assignAll js inner (ts.flatMap (Transfer.writes keep)) = .ok changed ∧
          x = .obj (Fields.set fields name changed) := by
  induction ts generalizing fields inner with
  | nil =>
    have hself : Fields.set fields name inner = fields := Entries.put_find hi
    rw [List.foldlM_nil,pure_eq_ok,eq_comm]
    simp [assignAll,hself]
  | cons t ts ih =>
    rw [List.foldlM_cons,bind_eq_ok,List.flatMap_cons,List.forall_mem_cons]
    simp only [within_obj hi hn,transferFunc_eq_ok,assignAll_append]
    have hnext : ∀ changed, Fields.get (Fields.set fields name changed) name = some changed := by
      intro changed
      exact (Entries.find_put _ _ _ _).trans (if_pos rfl)
    have htwice : ∀ v w, Fields.set (Fields.set fields name v) name w = Fields.set fields name w :=
      fun v w => Entries.put_put name v w fields
    constructor
    · rintro ⟨_,⟨changed,⟨ht,hc⟩,rfl⟩,h⟩
      obtain ⟨hts,final,hf,rfl⟩ := (ih (hnext changed)).mp h
      exact ⟨⟨ht,hts⟩,final,⟨changed,hc,hf⟩,by rw [htwice]⟩
    · rintro ⟨⟨ht,hts⟩,final,⟨changed,hc,hf⟩,rfl⟩
      exact ⟨_,⟨changed,⟨ht,hc⟩,rfl⟩,(ih (hnext changed)).mpr ⟨hts,final,hf,by rw [htwice]⟩⟩

end

def DistinctNames (fields : Fields) : Prop := (fields.map (fun e => idToSnakeCaseFast e.1)).Nodup

theorem DistinctNames.renamed {fields : Fields} (h : DistinctNames fields) (keep : Bool) :
    (fields.map (fun e => renames keep e.1)).Nodup := by
  cases keep with
  | false => exact h
  | true =>
    refine List.Nodup.of_map idToSnakeCaseFast ?_
    rw [List.map_map]
    exact h

theorem DistinctNames.get {fields : Fields} (h : DistinctNames fields) {e : String × Json} (he : e ∈ fields) :
    Fields.get fields e.1 = some e.2 :=
  OrderedMap.get_of_mem (m := ⟨fields,h.renamed true⟩) he

namespace Transfer

variable {keep : Bool} {t : Transfer}

theorem mem_writes {w : String × Json} : w ∈ t.writes keep ↔
    ∃ e ∈ entriesOf t.source, e.1 ∉ t.omitted ∧ (renames keep e.1,converts keep e.2) = w := by
  simp [writes,and_assoc]

variable (h : DistinctNames (entriesOf t.source))

include h

theorem nodup_writes : ((t.writes keep).map Prod.fst).Nodup := by
  unfold writes
  rw [List.map_map]
  exact (h.renamed keep).sublist (List.Sublist.map _ List.filter_sublist)

theorem latest_writes {e : String × Json}
    (he : e ∈ entriesOf t.source) (ho : e.1 ∉ t.omitted) :
    Entries.latest (renames keep e.1) (t.writes keep) = some (converts keep e.2) :=
  Entries.latest_of_mem (e := (renames keep e.1,converts keep e.2)) (nodup_writes h)
    (mem_writes.mpr ⟨e,he,ho,rfl⟩)

theorem latest_omitted {e : String × Json}
    (he : e ∈ entriesOf t.source) (ho : e.1 ∈ t.omitted) :
    Entries.latest (renames keep e.1) (t.writes keep) = none := by
  rw [Entries.latest_eq_none]
  intro hmem
  obtain ⟨w,hw,hname⟩ := List.mem_map.mp hmem
  obtain ⟨f,hf,hfo,rfl⟩ := mem_writes.mp hw
  have hef : f = e := List.inj_on_of_nodup_map (h.renamed keep) hf he hname
  exact hfo (hef ▸ ho)

end Transfer

end Jitsu.Destination
