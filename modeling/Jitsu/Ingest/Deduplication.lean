import Jitsu.Ingest.Accounting
import Jitsu.Ingest.Marshal
import Jitsu.Lib.Thinning

namespace Jitsu.Ingest

open Lib Thinning

def orderedMapString (fields : Fields) : String := String.ofList (writeObject (writeFields fields))

mutual

def sprint : Json → String
  | .null => "<nil>"
  | .bool value => toString value
  | .num literal => literal
  | .str value => value
  | .arr items => "[" ++ " ".intercalate (sprintItems items) ++ "]"
  | .obj fields => orderedMapString fields
  | .strings entries => "map[" ++ " ".intercalate (entries.map fun e => e.1 ++ ":" ++ e.2) ++ "]"

def sprintItems : List Json → List String
  | [] => []
  | item :: items => sprint item :: sprintItems items

end

section Spec

variable {ν : Type} (numeral : String → ν) (clock : Clock) (gapMs : ℕ)

inductive Same : Json → Json → Prop where
  | null : Same .null .null
  | bool (value : Bool) : Same (.bool value) (.bool value)
  | num {a b : String} (h : numeral a = numeral b) : Same (.num a) (.num b)
  | str (value : String) : Same (.str value) (.str value)
  | arr {xs ys : List Json} (h : List.Forall₂ Same xs ys) : Same (.arr xs) (.arr ys)
  | obj {fs gs : Fields} (h : ∀ key, Option.Rel Same (Fields.get fs key) (Fields.get gs key)) :
      Same (.obj fs) (.obj gs)
  | strings (entries : List (String × String)) : Same (.strings entries) (.strings entries)

mutual

theorem Same.refl : (v : Json) → Same numeral v v
  | .null => .null
  | .bool value => .bool value
  | .num _ => .num rfl
  | .str value => .str value
  | .arr items => .arr (Same.refl_items items)
  | .obj fields => .obj (Same.refl_fields fields)
  | .strings entries => .strings entries

theorem Same.refl_items : (items : List Json) → List.Forall₂ (Same numeral) items items
  | [] => .nil
  | item :: items => .cons (Same.refl item) (Same.refl_items items)

theorem Same.refl_fields : (fields : List (String × Json)) → ∀ key,
    Option.Rel (Same numeral) (Fields.get fields key) (Fields.get fields key)
  | [], _ => .none
  | (name,value) :: fields, key => by
    by_cases hname : name = key
    · rw [Fields.get,Entries.find,if_pos hname]
      exact .some (Same.refl value)
    · rw [Fields.get,Entries.find,if_neg hname]
      exact Same.refl_fields fields key

end

def textFields : List String := ["anonymousId","userId","type","event"]

def objectFields : List String := ["properties","traits"]

def identityFields : List String := textFields ++ objectFields

def Identical (e f : Fields) : Prop :=
  ∀ name ∈ identityFields, Option.Rel (Same numeral) (Fields.get e name) (Fields.get f name)

end Spec

section Selection

variable {ν : Type} (numeral : String → ν) (clock : Clock) (gapMs : ℕ)

def latest (before : List Fields) (key : EventKey) : Option Int :=
  before.findSome? (fun f => if eventKey sprint f = key then eventTime clock f else none)

def Spaced (s t : Int) : Prop :=
  s ≤ t ∧ (t - s ≤ gapMs * 1000000 ∨ (gapMs + 1) * 1000000 ≤ min (t - s) (2 ^ 63 - 1))

theorem Spaced.within_iff {s t : Int} (h : Spaced gapMs s t) :
    ((timeSub t s).tdiv 1000000).natAbs ≤ gapMs ↔ (t - s).natAbs ≤ gapMs * 1000000 := by
  obtain ⟨hle,hgap⟩ := h
  have hsub : timeSub t s = min (t - s) (2 ^ 63 - 1) := max_eq_right (by omega)
  rw [hsub,Int.tdiv_eq_ediv_of_nonneg (by omega)]
  omega

structure Legible (e : Fields) : Prop where
  texts : ∀ name ∈ textFields, ∀ v ∈ Fields.get e name, ∃ text, text ≠ "" ∧ v = .str text
  objects : ∀ name ∈ objectFields, ∀ v ∈ Fields.get e name, ∃ fields, v = .obj fields ∧ PlainFields fields

def Agree (e f : Fields) : Prop := ∀ name ∈ identityFields, Fields.get e name = Fields.get f name

def InStep (e f : Fields) : Prop :=
  ∀ s t, eventTime clock e = some s → eventTime clock f = some t → Spaced gapMs s t

structure Regular (batch : List Fields) : Prop where
  legible : ∀ e ∈ batch, (eventTime clock e).isSome = true → Legible e
  written : ∀ e ∈ batch, ∀ f ∈ batch, Identical numeral e f → Agree e f
  inStep : batch.Pairwise (fun e f => Agree e f → InStep clock gapMs e f)

variable {e f : Fields}

theorem Agree.eventKey (h : Agree e f) : eventKey sprint e = eventKey sprint f := by
  have hget : ∀ name ∈ identityFields, Fields.get e name = Fields.get f name := h
  simp only [identityFields,textFields,objectFields,List.cons_append,List.nil_append,
    List.forall_mem_cons] at hget
  obtain ⟨hanonymous,huser,htype,hevent,hproperties,htraits,-⟩ := hget
  simp only [Ingest.eventKey,Fields.getS,hanonymous,huser,htype,hevent,hproperties,htraits]

theorem elim_inj {P : Json → Prop} {print : Json → String} (hne : ∀ v, P v → print v ≠ "")
    (hinj : ∀ v w, P v → P w → print v = print w → v = w) {v w : Option Json} (hv : ∀ x ∈ v, P x)
    (hw : ∀ x ∈ w, P x) (h : v.elim "" print = w.elim "" print) : v = w := by
  cases v with
  | none =>
    cases w with
    | none => rfl
    | some w => exact absurd h.symm (hne w (hw w rfl))
  | some v =>
    cases w with
    | none => exact absurd h (hne v (hv v rfl))
    | some w => exact congrArg some (hinj v w (hv v rfl) (hw w rfl) h)

namespace Legible

variable (he : Legible e) (hf : Legible f)

include he hf

theorem text_inj {name : String} (hname : name ∈ textFields) (h : Fields.getS e name = Fields.getS f name) :
    Fields.get e name = Fields.get f name := by
  refine elim_inj ?_ ?_ (he.texts name hname) (hf.texts name hname) h
  · rintro _ ⟨text,hne,rfl⟩
    exact hne
  · rintro _ _ ⟨text,-,rfl⟩ ⟨text',-,rfl⟩ h
    exact congrArg Json.str h

theorem object_inj {name : String} (hname : name ∈ objectFields)
    (h : (Fields.get e name).elim "" sprint = (Fields.get f name).elim "" sprint) :
    Fields.get e name = Fields.get f name := by
  refine elim_inj ?_ ?_ (he.objects name hname) (hf.objects name hname) h
  · rintro _ ⟨fields,rfl,-⟩ h
    cases String.ofList_injective h
  · rintro _ _ ⟨fields,rfl,hplain⟩ ⟨fields',rfl,hplain'⟩ h
    have htext := writeObject_inj (String.ofList_injective h)
    exact congrArg Json.obj (fields_append fields fields' hplain hplain' (congrArg (· ++ ['}']) htext)).1

theorem agree (h : eventKey sprint e = eventKey sprint f) : Agree e f := by
  obtain ⟨hanonymous,huser,htype,hevent,hproperties,htraits⟩ := EventKey.mk.inj h
  unfold Agree
  simp only [identityFields,textFields,objectFields,List.cons_append,List.nil_append,List.forall_mem_cons]
  exact ⟨he.text_inj hf (by simp [textFields]) hanonymous,he.text_inj hf (by simp [textFields]) huser,
    he.text_inj hf (by simp [textFields]) htype,he.text_inj hf (by simp [textFields]) hevent,
    he.object_inj hf (by simp [objectFields]) hproperties,he.object_inj hf (by simp [objectFields]) htraits,
    List.forall_mem_nil _⟩

end Legible

namespace Regular

variable {numeral clock gapMs} {batch : List Fields}

theorem sublist {batch' : List Fields} (hsub : batch'.Sublist batch) (h : Regular numeral clock gapMs batch) :
    Regular numeral clock gapMs batch' :=
  ⟨fun e he => h.legible e (hsub.subset he),
    fun e he f hf => h.written e (hsub.subset he) f (hsub.subset hf),h.inStep.sublist hsub⟩

theorem agree (h : Regular numeral clock gapMs batch) (he : e ∈ batch) (hf : f ∈ batch)
    {s t : Int} (hs : eventTime clock e = some s) (ht : eventTime clock f = some t)
    (hkey : eventKey sprint e = eventKey sprint f) : Agree e f :=
  (h.legible e he (by rw [hs]; rfl)).agree (h.legible f hf (by rw [ht]; rfl)) hkey

end Regular

end Selection

section Failures

end Failures

end Jitsu.Ingest
