import Jitsu.Lib.Checked
import Jitsu.WarehouseQuery.Reader

namespace Jitsu.WarehouseQuery

open Lib Checked

variable {Cell N : Type}

section Binding

variable {rules : SqlDialectRules} {columns : List WarehouseColumn} {i : ℕ} {p p' : Parameters}

def Parameters.Below (p : Parameters) (i : ℕ) : Prop := ∀ e ∈ p.queryParams, ∃ j < i, e.1 = "p" ++ toString j

def Parameters.Extends (p p' : Parameters) : Prop := ∀ h v, p.value h = some v → p'.value h = some v

theorem parameterName_inj {i j : ℕ} (h : "p" ++ toString i = "p" ++ toString j) : i = j :=
  Nat.repr_injective (String.append_right_inj "p" |>.mp h)

variable {value : String}

theorem value_named {index : ℕ} (hp : p.Below index) :
    ((p.queryParams ++ [("p" ++ toString index,value)]).find? fun e => e.1 = "p" ++ toString index).map (·.2) =
      some value := by
  have hnone : (p.queryParams.find? fun e => e.1 = "p" ++ toString index) = none := by
    refine List.find?_eq_none.mpr fun e he => ?_
    obtain ⟨j,hj,hname⟩ := hp e he
    rw [hname,decide_eq_true_eq]
    exact fun h => Nat.ne_of_lt hj (parameterName_inj h)
  rw [List.find?_append,hnone]
  simp

theorem extends_values (value : String) : p.Extends { p with values := p.values ++ [value] } := by
  intro h v hv
  cases h with
  | positional n =>
    change (p.values ++ [value])[n - 1]? = some v
    change p.values[n - 1]? = some v at hv
    rw [List.getElem?_append_left (List.getElem?_eq_some_iff.mp hv).1]
    exact hv
  | cast index type => exact hv
  | substituted index type => exact hv

theorem find_append_some {e v : String × String} {xs : List (String × String)} {q : String × String → Bool}
    (h : xs.find? q = some v) : (xs ++ [e]).find? q = some v := by
  rw [List.find?_append,h]
  rfl

theorem extends_named (e : String × String) : p.Extends { p with queryParams := p.queryParams ++ [e] } := by
  intro h v hv
  cases h with
  | positional n => exact hv
  | cast index type =>
    obtain ⟨found,hfound,rfl⟩ := Option.map_eq_some_iff.mp hv
    exact congrArg (Option.map (·.2)) (find_append_some hfound)
  | substituted index type =>
    obtain ⟨found,hfound,rfl⟩ := Option.map_eq_some_iff.mp hv
    exact congrArg (Option.map (·.2)) (find_append_some hfound)

theorem below_named (hp : p.Below i) :
    Parameters.Below { p with queryParams := p.queryParams ++ [("p" ++ toString i,value)] } (i + 1) := by
  intro e he
  rcases List.mem_append.mp he with he | he
  · obtain ⟨j,hj,hname⟩ := hp e he
    exact ⟨j,Nat.lt_succ_of_lt hj,hname⟩
  · cases List.mem_singleton.mp he
    exact ⟨i,Nat.lt_succ_self i,rfl⟩

theorem bind_value {type : String} {h : Placeholder} (hp : p.Below i)
    (hbind : rules.bind value type i p = .ok (h,p')) :
    p'.value h = some value ∧ p.Extends p' ∧ p'.Below (i + 1) := by
  unfold SqlDialectRules.bind at hbind
  split at hbind
  · cases hbind
    refine ⟨?_,extends_values value,fun e he => ?_⟩
    · change (p.values ++ [value])[p.values.length + 1 - 1]? = some value
      rw [Nat.add_sub_cancel,List.getElem?_concat_length]
    · obtain ⟨j,hj,hname⟩ := hp e he
      exact ⟨j,Nat.lt_succ_of_lt hj,hname⟩
  · obtain ⟨t,-,hbind⟩ := bind_eq_ok.mp hbind
    cases hbind
    exact ⟨value_named hp,extends_named _,below_named hp⟩
  · obtain ⟨t,-,hbind⟩ := bind_eq_ok.mp hbind
    cases hbind
    exact ⟨value_named hp,extends_named _,below_named hp⟩

theorem bindAll_values {names values : List String} {hs : List Placeholder} (hp : p.Below i)
    (hlen : values.length = names.length) (hbind : rules.bindAll columns names values i p = .ok (hs,p')) :
    List.Forall₂ (fun h v => p'.value h = some v) hs values ∧ p.Extends p' := by
  induction names generalizing values hs i p with
  | nil =>
    cases List.length_eq_zero_iff.mp hlen
    cases hbind
    exact ⟨.nil,fun _ _ h => h⟩
  | cons name names ih =>
    cases values with
    | nil => cases hlen
    | cons value values =>
      obtain ⟨⟨h,q⟩,hfirst,hbind⟩ := bind_eq_ok.mp hbind
      obtain ⟨⟨rest,q'⟩,hrest,hbind⟩ := bind_eq_ok.mp hbind
      cases hbind
      obtain ⟨hvalue,hext,hbelow⟩ := bind_value hp hfirst
      obtain ⟨hvalues,hext'⟩ := ih hbelow (Nat.succ.inj hlen) hrest
      exact ⟨.cons (hext' _ _ hvalue) hvalues,fun h v hv => hext' h v (hext h v hv)⟩

theorem bindAll_ok {names values : List String} (i : ℕ) (p : Parameters) (hlen : values.length = names.length)
    (htypes : ∀ name ∈ names, ∃ t, rules.checkpointType (SqlDialectRules.typeOf columns name) = .ok t) :
    ∃ r, rules.bindAll columns names values i p = .ok r := by
  induction names generalizing values i p with
  | nil =>
    cases List.length_eq_zero_iff.mp hlen
    exact ⟨_,rfl⟩
  | cons name names ih =>
    cases values with
    | nil => cases hlen
    | cons value values =>
      obtain ⟨⟨t,ht⟩,hrest⟩ := List.forall_mem_cons.mp htypes
      have hfirst : ∃ b, rules.bind value (SqlDialectRules.typeOf columns name) i p = .ok b := by
        unfold SqlDialectRules.bind
        split
        · exact ⟨_,rfl⟩
        · exact ⟨_,by rw [ht]; rfl⟩
        · exact ⟨_,by rw [ht]; rfl⟩
      obtain ⟨b,hb⟩ := hfirst
      obtain ⟨r,hr⟩ := ih (i + 1) b.2 (Nat.succ.inj hlen) hrest
      refine ⟨(b.1 :: r.1,r.2),?_⟩
      rw [SqlDialectRules.bindAll]
      exact bind_eq_ok.mpr ⟨b,hb,bind_eq_ok.mpr ⟨r,hr,rfl⟩⟩

end Binding

section Meaning

open SqlDialectRules

variable {w : Warehouse Cell N} {parameters : Parameters} {bound : List (String × Placeholder)}
  {r x : Row Cell}

theorem mem_disjuncts {d : List Comparison} : d ∈ disjuncts bound ↔ ∃ pre b post, bound = pre ++ b :: post ∧
    d = pre.map (fun p => .equals p.1 p.2) ++ [.greater b.1 b.2] := by
  constructor
  · intro hd
    obtain ⟨⟨b,i⟩,hmem,rfl⟩ := List.mem_map.mp hd
    obtain ⟨hi,hb⟩ := List.getElem?_eq_some_iff.mp (List.mk_mem_zipIdx_iff_getElem?.mp hmem)
    refine ⟨bound.take i,b,bound.drop (i + 1),?_,rfl⟩
    rw [← hb,List.getElem_cons_drop,List.take_append_drop]
  · rintro ⟨pre,b,post,rfl,rfl⟩
    refine List.mem_map.mpr ⟨(b,pre.length),List.mk_mem_zipIdx_iff_getElem?.mpr ?_,?_⟩
    · rw [List.getElem?_append_right (Nat.le_refl _),Nat.sub_self,List.getElem?_cons_zero]
    · rw [List.take_left]

theorem Warehouse.cellLt_strictTotal (w : Warehouse Cell N) (column : String) :
    StrictTotal (w.cellLt column) where
  irrefl := by
    rintro (_ | a)
    · exact id
    · exact (w.strictTotal column).irrefl a
  trans := by
    rintro (_ | a) (_ | b) (_ | c) hab hbc
    · exact hab
    · exact hbc
    · exact absurd (Eq.trans (Eq.symm hab) hbc) (by decide)
    · exact hab
    · exact hab
    · exact absurd (Eq.trans (Eq.symm hab) hbc) (by decide)
    · exact hbc
    · exact (w.strictTotal column).trans a b c hab hbc
  total := by
    rintro (_ | a) (_ | b)
    · exact .inr (.inl rfl)
    · cases hn : w.nullsFirst with
      | true => exact .inl hn
      | false => exact .inr (.inr hn)
    · cases hn : w.nullsFirst with
      | true => exact .inr (.inr hn)
      | false => exact .inl hn
    · rcases (w.strictTotal column).total a b with hlt | heq | hlt
      · exact .inl hlt
      · exact .inr (.inl (congrArg some heq))
      · exact .inr (.inr hlt)

theorem before_irrefl (order : List String) (a : Counted Cell) : ¬w.before order a a :=
  LexLt.irrefl w.cellLt_strictTotal

theorem before_trans (order : List String) (a b c : Counted Cell) (hab : w.before order a b)
    (hbc : w.before order b c) : w.before order a c :=
  LexLt.trans w.cellLt_strictTotal hab hbc

theorem forall₂_zip {names values : List String} {hs : List Placeholder} {r : Row Cell}
    (hnames : List.Forall₂ (fun name value => r name = some (w.parameter name value)) names values)
    (hvalues : List.Forall₂ (fun h v => parameters.value h = some v) hs values) :
    (names.zip hs).map (·.1) = names ∧
      ∀ b ∈ names.zip hs, (parameters.value b.2).map (w.parameter b.1) = r b.1 := by
  induction hnames generalizing hs with
  | nil =>
    cases hvalues
    exact ⟨rfl,nofun⟩
  | cons hname _ ih =>
    cases hvalues with
    | cons hvalue hrest =>
      obtain ⟨hmap,hbound⟩ := ih hrest
      refine ⟨congrArg (List.cons _) hmap,List.forall_mem_cons.mpr ⟨?_,hbound⟩⟩
      rw [hvalue,hname]
      rfl

variable [DecidableEq Cell]

theorem holds_equals {column : String} {h : Placeholder}
    (hr : (parameters.value h).map (w.parameter column) = r column)
    (hx : (x column).isSome) :
    Truth.holds (Comparison.meaning w parameters x (.equals column h)) = true ↔ r column = x column := by
  obtain ⟨cell,hcell⟩ := Option.isSome_iff_exists.mp hx
  rw [Comparison.meaning,hr,Truth.holds_compare,hcell]
  constructor
  · rintro ⟨a,b,ha,hb,heq⟩
    rw [hb,ha,of_decide_eq_true heq]
  · exact fun heq => ⟨cell,cell,rfl,heq,decide_eq_true rfl⟩

theorem holds_greater {column : String} {h : Placeholder}
    (hr : (parameters.value h).map (w.parameter column) = r column)
    (hsome : (r column).isSome) (hx : (x column).isSome) :
    Truth.holds (Comparison.meaning w parameters x (.greater column h)) = true ↔
      w.cellLt column (r column) (x column) := by
  obtain ⟨a,ha⟩ := Option.isSome_iff_exists.mp hsome
  obtain ⟨cell,hcell⟩ := Option.isSome_iff_exists.mp hx
  rw [Comparison.meaning,hr,Truth.holds_compare,hcell,ha]
  constructor
  · rintro ⟨_,_,⟨⟩,⟨⟩,hlt⟩
    exact hlt
  · exact fun hlt => ⟨cell,a,rfl,rfl,hlt⟩

theorem map_fst_split {pre post : List String} {k : String} (h : bound.map (·.1) = pre ++ k :: post) :
    ∃ before b after, bound = before ++ b :: after ∧ before.map (·.1) = pre ∧ b.1 = k := by
  obtain ⟨before,rest,rfl,hbefore,hrest⟩ := List.map_eq_append_iff.mp h
  obtain ⟨b,after,rfl,hb,-⟩ := List.map_eq_cons_iff.mp hrest
  exact ⟨before,b,after,rfl,hbefore,hb⟩

theorem holds_after (hr : ∀ b ∈ bound, (parameters.value b.2).map (w.parameter b.1) = r b.1)
    (hsome : ∀ b ∈ bound, (r b.1).isSome) (hx : ∀ b ∈ bound, (x b.1).isSome) :
    Truth.holds (Condition.meaning w parameters x (.after (disjuncts bound))) = true ↔
      LexLt w.cellLt (bound.map (·.1)) r x := by
  unfold Condition.meaning
  rw [Truth.holds_any,lexLt_iff]
  constructor
  · rintro ⟨_,hmem,hholds⟩
    obtain ⟨d,hd,rfl⟩ := List.mem_map.mp hmem
    obtain ⟨pre,b,post,rfl,rfl⟩ := mem_disjuncts.mp hd
    have hb : b ∈ pre ++ b :: post := List.mem_append_right _ List.mem_cons_self
    rw [Truth.holds_all] at hholds
    refine ⟨pre.map (·.1),b.1,post.map (·.1),by rw [List.map_append,List.map_cons],?_,?_⟩
    · refine List.forall_mem_map.mpr fun p hp => ?_
      have hmem : p ∈ pre ++ b :: post := List.mem_append_left _ hp
      refine (holds_equals (hr p hmem) (hx p hmem)).mp (hholds _ (List.mem_map_of_mem ?_))
      exact List.mem_append_left _ (List.mem_map_of_mem hp)
    · refine (holds_greater (hr b hb) (hsome b hb) (hx b hb)).mp (hholds _ (List.mem_map_of_mem ?_))
      exact List.mem_append_right _ List.mem_cons_self
  · rintro ⟨pre,k,post,hsplit,heq,hlt⟩
    obtain ⟨before,b,after,rfl,rfl,rfl⟩ := map_fst_split hsplit
    have hb : b ∈ before ++ b :: after := List.mem_append_right _ List.mem_cons_self
    refine ⟨_,List.mem_map_of_mem (mem_disjuncts.mpr ⟨before,b,after,rfl,rfl⟩),(Truth.holds_all _).mpr ?_⟩
    refine List.forall_mem_map.mpr fun c hc => ?_
    rcases List.mem_append.mp hc with hc | hc
    · obtain ⟨p,hp,rfl⟩ := List.mem_map.mp hc
      have hmem : p ∈ before ++ b :: after := List.mem_append_left _ hp
      exact (holds_equals (hr p hmem) (hx p hmem)).mpr (heq _ (List.mem_map_of_mem hp))
    · cases List.mem_singleton.mp hc
      exact (holds_greater (hr b hb) (hsome b hb) (hx b hb)).mpr hlt

end Meaning

section Checkpoint

open SqlDialectRules

variable {w : Warehouse Cell N} {model : ModelDefinition} {cursor : Cursor} {c : Counted Cell}

theorem record_cell {name : String}
    (hscalar : (if name = keyCountColumn then Js.undefined else w.record c name).scalar = true) :
    ∃ cell, c.row name = some cell ∧ (if name = keyCountColumn then Js.undefined else w.record c name) =
      w.read name cell := by
  split at hscalar
  · cases hscalar
  · rename_i hname
    rw [if_neg hname]
    unfold Warehouse.record at hscalar ⊢
    rw [if_neg hname] at hscalar ⊢
    cases hrow : c.row name with
    | none =>
      rw [hrow] at hscalar
      cases hscalar
    | some cell => exact ⟨cell,rfl,rfl⟩

theorem record_bound {name value : String}
    (hscalar : (if name = keyCountColumn then Js.undefined else w.record c name).scalar = true)
    (htext : (if name = keyCountColumn then Js.undefined else w.record c name).text w.numberText = value) :
    c.row name = some (w.parameter name value) := by
  obtain ⟨cell,hrow,hread⟩ := record_cell hscalar
  rw [hread] at hscalar htext
  rw [hrow,← htext,w.parameter_read name cell hscalar]

theorem keyText_bound {name value : String}
    (h : w.keyText (fun name => if name = keyCountColumn then .undefined else w.record c name) name =
      .ok value) : c.row name = some (w.parameter name value) := by
  unfold Warehouse.keyText at h
  split at h
  · rename_i hscalar
    exact record_bound hscalar (Except.ok.inj h)
  · cases h

theorem cursorText_bound {name value : String}
    (h : w.cursorText (fun name => if name = keyCountColumn then .undefined else w.record c name) name =
      .ok value) : c.row name = some (w.parameter name value) := by
  unfold Warehouse.cursorText at h
  split at h
  · rename_i s hs
    exact record_bound (congrArg Js.scalar hs) ((congrArg (Js.text w.numberText) hs).trans (Except.ok.inj h))
  · rename_i n hn
    exact record_bound (congrArg Js.scalar hn) ((congrArg (Js.text w.numberText) hn).trans (Except.ok.inj h))
  · cases h

theorem decodeRecord_checkpoint {record : SourceRecord N} {after : CompositeCursor}
    (hcursor : model.cursor = some cursor) (h : w.decodeRecord model (w.record c) = .ok record)
    (hafter : record.checkpoint = some after) :
    List.Forall₂ (fun name value => c.row name = some (w.parameter name value)) (ordering model)
      (after.value :: after.primaryKeyValues) := by
  unfold Warehouse.decodeRecord at h
  split at h
  · cases h
  · rw [hcursor] at h
    obtain ⟨key,hkey,h⟩ := bind_eq_ok.mp h
    obtain ⟨value,hvalue,h⟩ := bind_eq_ok.mp h
    obtain ⟨checkpoint,hchecked,h⟩ := bind_eq_ok.mp h
    cases hchecked
    have hrecord : record.checkpoint = some ⟨value,key⟩ := by
      dsimp only at h
      split at h
      · cases h
        rfl
      · obtain ⟨deleted,-,h⟩ := bind_eq_ok.mp h
        cases h
        rfl
    cases hrecord.symm.trans hafter
    have horder : ordering model = cursor.column :: model.primaryKey := by
      unfold ordering
      rw [hcursor]
      rfl
    rw [horder]
    exact .cons (cursorText_bound hvalue) ((mapM_eq_ok.mp hkey).imp fun _ _ => keyText_bound)

end Checkpoint

section Compiled

open SqlDialectRules

variable {rules : SqlDialectRules} {model : ModelDefinition} {columns : List WarehouseColumn} {cursor : Cursor}
  {p : Plan} {q : Parameters}

theorem validateColumns_checkpoint (hcursor : model.cursor = some cursor)
    (hlookback : cursor.lookbackSeconds = none)
    (h : rules.validateColumns model columns = .ok ()) {name : String} (hname : name ∈ ordering model) :
    ∃ t, rules.checkpointType (typeOf columns name) = .ok t := by
  unfold validateColumns at h
  rw [hcursor] at h
  obtain ⟨-,-,h⟩ := bind_eq_ok.mp h
  obtain ⟨-,-,h⟩ := bind_eq_ok.mp h
  obtain ⟨-,-,h⟩ := bind_eq_ok.mp h
  obtain ⟨-,-,h⟩ := bind_eq_ok.mp h
  obtain ⟨-,-,h⟩ := bind_eq_ok.mp h
  obtain ⟨-,-,h⟩ := bind_eq_ok.mp h
  rw [hlookback] at h
  unfold ordering at hname
  rw [hcursor] at hname
  obtain ⟨t,ht,-⟩ := bind_eq_ok.mp (forM_eq_ok.mp h name hname)
  exact ⟨t,ht⟩

theorem plan_none (h : rules.plan model columns none = .ok (p,q)) :
    rules.validateQuery model.query = .ok p.sql ∧ rules.validateColumns model columns = .ok () ∧
      p.keys = model.primaryKey ∧ p.condition = none ∧ p.order = ordering model := by
  obtain ⟨sql,hsql,h⟩ := bind_eq_ok.mp h
  obtain ⟨_,hcolumns,h⟩ := bind_eq_ok.mp h
  cases h
  exact ⟨hsql,hcolumns,rfl,rfl,rfl⟩

theorem plan_some {after : CompositeCursor} (hcursor : model.cursor = some cursor)
    (hlookback : cursor.lookbackSeconds = none) (hplan : rules.plan model columns none = .ok (p,q))
    (hlength : after.primaryKeyValues.length = model.primaryKey.length) :
    ∃ hs q', rules.plan model columns (some after) =
        .ok ({ p with condition := some (.after (disjuncts ((ordering model).zip hs))) },q') ∧
      List.Forall₂ (fun h v => q'.value h = some v) hs (after.value :: after.primaryKeyValues) := by
  obtain ⟨hsql,hcolumns,hkeys,-,horder⟩ := plan_none hplan
  have hvalues : (after.value :: after.primaryKeyValues).length = (ordering model).length := by
    unfold ordering
    rw [hcursor]
    exact congrArg (· + 1) hlength
  obtain ⟨⟨hs,q'⟩,hbind⟩ := bindAll_ok 0 {} hvalues
    fun name hname => validateColumns_checkpoint hcursor hlookback hcolumns hname
  refine ⟨hs,q',?_,(bindAll_values (fun _ he => absurd he List.not_mem_nil) hvalues hbind).1⟩
  unfold plan
  rw [hsql,hcolumns,hkeys,horder]
  have hresume : rules.resume model columns after =
      .ok (.after (disjuncts ((ordering model).zip hs)),q') := by
    unfold resume
    rw [hcursor]
    dsimp only
    rw [if_neg (not_not.mpr hlength),hlookback]
    dsimp only
    rw [hbind]
    rfl
  exact bind_eq_ok.mpr ⟨_,rfl,bind_eq_ok.mpr ⟨(),rfl,bind_eq_ok.mpr ⟨_,hresume,rfl⟩⟩⟩

end Compiled

section Suffix

open SqlDialectRules

variable [DecidableEq Cell] (w : Warehouse Cell N) (rules : SqlDialectRules) (model : ModelDefinition)
  (columns : List WarehouseColumn) (rows : List (Row Cell))

structure Proper : Prop where
  valued : ∀ row ∈ rows, ∀ name ∈ ordering model, (row name).isSome
  distinct : rows.Pairwise fun a b => sameKey model.primaryKey a b = false

inductive Reading : Option CompositeCursor → List (Counted Cell) → Prop
  | finish {after : Option CompositeCursor} {p : Plan} {q : Parameters} {out : List (Counted Cell)}
      (compiled : rules.plan model columns after = .ok (p,q)) (answered : p.Answers w q rows out) :
      Reading after out
  | interrupted {after : Option CompositeCursor} {p : Plan} {q : Parameters}
    {taken rest visited : List (Counted Cell)}
      {c : Counted Cell} {record : SourceRecord N} {checkpoint : CompositeCursor}
      (compiled : rules.plan model columns after = .ok (p,q))
      (answered : p.Answers w q rows (taken ++ c :: rest))
      (decoded : w.decodeRecord model (w.record c) = .ok record) (saved : record.checkpoint = some checkpoint)
      (resumed : Reading (some checkpoint) visited) :
      Reading after (taken ++ c :: visited)

variable {w rules model columns rows} {cursor : Cursor} {p : Plan} {q : Parameters} {keys : List String}

theorem sameKey_symm {a b : Row Cell} : sameKey keys a b = sameKey keys b a := by
  unfold sameKey
  simp only [eq_comm]

theorem sameKey_iff {a b : Row Cell} :
    sameKey keys a b = true ↔ ∀ key ∈ keys, a key = b key := by
  unfold sameKey
  simp only [List.all_eq_true,decide_eq_true_eq]

theorem key_mem_ordering {key : String} (h : key ∈ model.primaryKey) : key ∈ ordering model :=
  List.mem_append_right _ h

theorem selects_none (h : p.condition = none) (c : Counted Cell) : p.selects w q c = true := by
  unfold Plan.selects
  rw [h]
  rfl

variable {full : List (Counted Cell)}

theorem Plan.Answers.perm (hplan : rules.plan model columns none = .ok (p,q))
    (h : p.Answers w q rows full) : full.Perm (counted model.primaryKey rows) := by
  obtain ⟨-,-,hkeys,hcondition,-⟩ := plan_none hplan
  have hselected := h.selected
  rwa [hkeys,List.filter_eq_self.mpr fun c _ => selects_none hcondition c] at hselected

theorem Plan.Answers.increasing (hrows : Proper model rows)
    (hplan : rules.plan model columns none = .ok (p,q)) (h : p.Answers w q rows full) :
    full.Pairwise (w.before (ordering model)) := by
  obtain ⟨-,-,-,-,horder⟩ := plan_none hplan
  have hdistinct : full.Pairwise fun a b => sameKey model.primaryKey a.row b.row = false := by
    refine ((h.perm hplan).pairwise_iff fun hab => sameKey_symm.trans hab).mpr ?_
    exact List.pairwise_map.mpr hrows.distinct
  have hsorted := h.sorted
  rw [horder] at hsorted
  refine (hsorted.and hdistinct).imp fun {a b} hab => ?_
  rcases LexLt.total w.cellLt_strictTotal (ordering model) a.row b.row with hlt | heq | hlt
  · exact hlt
  · have hsame := sameKey_iff.mpr fun key hkey => heq key (key_mem_ordering hkey)
    exact absurd (hab.2.symm.trans hsame) (by decide)
  · exact absurd hlt hab.1

variable {c : Counted Cell}

theorem Plan.Answers.valued (hrows : Proper model rows)
    (hplan : rules.plan model columns none = .ok (p,q)) (h : p.Answers w q rows full)
    (hc : c ∈ full) {name : String} (hname : name ∈ ordering model) : (c.row name).isSome := by
  obtain ⟨row,hrow,rfl⟩ := List.mem_map.mp ((h.perm hplan).subset hc)
  exact hrows.valued row hrow name hname

theorem answers_iff {p : Plan} {q : Parameters} {post : List (Counted Cell)}
    (hperm : ((counted p.keys rows).filter (p.selects w q)).Perm post)
    (hpost : post.Pairwise (w.before p.order))
    (out : List (Counted Cell)) : p.Answers w q rows out ↔ out = post := by
  have hsorted : post.Pairwise fun a b => ¬w.before p.order b a :=
    hpost.imp fun hab hba => before_irrefl _ _ (before_trans _ _ _ _ hab hba)
  refine ⟨fun h => ?_,fun h => ⟨h ▸ hperm.symm,h ▸ hsorted⟩⟩
  have hout : out.Perm post := h.selected.trans hperm
  have hcompare : ∀ a ∈ post, ∀ b ∈ post, a = b ∨ w.before p.order a b ∨ w.before p.order b a := by
    refine List.Pairwise.forall_of_forall_of_flip (fun a _ => .inl rfl) ?_ ?_
    · exact hpost.imp fun hab => .inr (.inl hab)
    · exact hpost.imp fun hab => .inr (.inr hab)
  refine hout.eq_of_pairwise (fun a b ha hb hab hba => ?_) h.sorted hsorted
  rcases hcompare a (hout.subset ha) b hb with heq | hlt | hlt
  · exact heq
  · exact absurd hlt hba
  · exact absurd hlt hab

variable {record : SourceRecord N}

theorem plan_resumed (hcursor : model.cursor = some cursor) (hlookback : cursor.lookbackSeconds = none)
    (hplan : rules.plan model columns none = .ok (p,q))
    {after : CompositeCursor} (hdecode : w.decodeRecord model (w.record c) = .ok record)
    (hafter : record.checkpoint = some after) (hc : ∀ name ∈ ordering model, (c.row name).isSome) :
    ∃ p' q', rules.plan model columns (some after) = .ok (p',q') ∧ p'.keys = model.primaryKey ∧
      p'.order = ordering model ∧ ∀ x : Counted Cell, (∀ name ∈ ordering model, (x.row name).isSome) →
        (p'.selects w q' x = true ↔ w.before (ordering model) c x) := by
  have hbound := decodeRecord_checkpoint hcursor hdecode hafter
  have hlength : after.primaryKeyValues.length = model.primaryKey.length := by
    have hall := hbound.length_eq
    unfold ordering at hall
    rw [hcursor] at hall
    exact (Nat.succ.inj hall).symm
  obtain ⟨hs,q',hresumed,hvalues⟩ := plan_some hcursor hlookback hplan hlength
  obtain ⟨hmap,hparameters⟩ := forall₂_zip hbound hvalues
  obtain ⟨-,-,hkeys,-,horder⟩ := plan_none hplan
  have hmem : ∀ b ∈ (ordering model).zip hs, b.1 ∈ ordering model := fun b hb => (List.of_mem_zip hb).1
  refine ⟨_,q',hresumed,hkeys,horder,fun x hx => ?_⟩
  have hholds := holds_after hparameters (fun b hb => hc _ (hmem b hb)) fun b hb => hx _ (hmem b hb)
  rwa [hmap] at hholds

theorem resumed_suffix (hcursor : model.cursor = some cursor) (hlookback : cursor.lookbackSeconds = none)
    (hrows : Proper model rows) (hplan : rules.plan model columns none = .ok (p,q))
    {pre post : List (Counted Cell)}
    {after : CompositeCursor}
    (hfull : p.Answers w q rows (pre ++ c :: post)) (hdecode : w.decodeRecord model (w.record c) = .ok record)
    (hafter : record.checkpoint = some after) :
    ∃ p' q', rules.plan model columns (some after) = .ok (p',q') ∧
      ∀ out, p'.Answers w q' rows out ↔ out = post := by
  have hvalued : ∀ x ∈ pre ++ c :: post, ∀ name ∈ ordering model, (x.row name).isSome :=
    fun x hx name hname => hfull.valued hrows hplan hx hname
  have hc : c ∈ pre ++ c :: post := List.mem_append_right _ List.mem_cons_self
  obtain ⟨p',q',hresumed,hkeys,horder,hselects⟩ := plan_resumed hcursor hlookback hplan hdecode hafter
    (hvalued c hc)
  have hincreasing := hfull.increasing hrows hplan
  have hfilter : (pre ++ c :: post).filter (p'.selects w q') = post :=
    filter_after (before_irrefl _) (before_trans _) hincreasing fun x hx => hselects x (hvalued x hx)
  have hperm : ((counted p'.keys rows).filter (p'.selects w q')).Perm post := by
    rw [hkeys]
    exact ((hfull.perm hplan).symm.filter _).trans (.of_eq hfilter)
  have hpost : post.Pairwise (w.before p'.order) := by
    rw [horder]
    exact (List.pairwise_cons.mp (List.pairwise_append.mp hincreasing).2.1).2
  exact ⟨p',q',hresumed,answers_iff hperm hpost⟩

def Position (w : Warehouse Cell N) (model : ModelDefinition) (full : List (Counted Cell)) :
    Option CompositeCursor → List (Counted Cell) → Prop
  | none, remaining => remaining = full
  | some after, remaining => ∃ pre c record, full = pre ++ c :: remaining ∧
      w.decodeRecord model (w.record c) = .ok record ∧ record.checkpoint = some after

variable {after : Option CompositeCursor}

theorem Position.answers (hcursor : model.cursor = some cursor) (hlookback : cursor.lookbackSeconds = none)
    (hrows : Proper model rows) (hplan : rules.plan model columns none = .ok (p,q))
    {remaining out : List (Counted Cell)} {p' : Plan} {q' : Parameters}
    (hfull : p.Answers w q rows full) (hposition : Position w model full after remaining)
    (hresumed : rules.plan model columns after = .ok (p',q')) (hout : p'.Answers w q' rows out) :
    out = remaining := by
  cases after with
  | none =>
    cases hplan.symm.trans hresumed
    cases hposition
    have hincreasing := hfull.increasing hrows hplan
    obtain ⟨-,-,-,-,horder⟩ := plan_none hplan
    exact (answers_iff hfull.selected.symm (horder ▸ hincreasing) out).mp hout
  | some after =>
    obtain ⟨pre,c,record,rfl,hdecode,hafter⟩ := hposition
    obtain ⟨p'',q'',hcompiled,hanswers⟩ := resumed_suffix hcursor hlookback hrows hplan hfull hdecode hafter
    cases hcompiled.symm.trans hresumed
    exact (hanswers out).mp hout

omit [DecidableEq Cell] in
theorem Position.advance {taken rest : List (Counted Cell)}
    {checkpoint : CompositeCursor}
    (h : Position w model full after (taken ++ c :: rest))
    (hdecode : w.decodeRecord model (w.record c) = .ok record) (hsaved : record.checkpoint = some checkpoint) :
    Position w model full (some checkpoint) rest := by
  cases after with
  | none =>
    cases h
    exact ⟨taken,c,record,rfl,hdecode,hsaved⟩
  | some after =>
    obtain ⟨pre,c',_,rfl,-,-⟩ := h
    exact ⟨pre ++ c' :: taken,c,record,by simp,hdecode,hsaved⟩

theorem Reading.answer (hplan : rules.plan model columns none = .ok (p,q)) {visited : List (Counted Cell)}
    (hreading : Reading w rules model columns rows none visited) : ∃ full, p.Answers w q rows full := by
  cases hreading with
  | finish compiled answered =>
    cases hplan.symm.trans compiled
    exact ⟨_,answered⟩
  | interrupted compiled answered decoded saved resumed =>
    cases hplan.symm.trans compiled
    exact ⟨_,answered⟩

end Suffix

section Sample

open SqlDialectRules

def order (id updated : ℕ) : Row ℕ := fun name => if name = "id" then some id else some updated

end Sample

end Jitsu.WarehouseQuery
