import Jitsu.Warehouse.Convert

namespace Jitsu.Warehouse

variable {F T : Type}

def Value.dataType (v : Value F T) : DataType :=
  match typeFromValue v with
  | .ok t => t
  | .error _ => .unknown

def mergedType (t s : DataType) : DataType := if t = s then t else getCommonAncestorType t s

instance : Fintype DataType where
  elems := {.unknown,.bool,.int64,.float64,.string,.timestamp,.json}
  complete t := by cases t <;> decide

def convertible (s t : DataType) : Bool :=
  s = t || (s,if t = .unknown then .string else t) ∈
    [(.bool,.string),(.int64,.string),(.float64,.string),(.timestamp,.string),(.json,.string),
      (.unknown,.string),(.string,.json),(.bool,.int64),(.float64,.int64),(.bool,.float64),(.int64,.float64),
      (.string,.bool),(.int64,.bool),(.float64,.bool),(.string,.timestamp),(.string,.int64),
      (.string,DataType.float64)]

def Clash (t s : DataType) : Prop := t = .timestamp ∧ s = .json ∨ t = .json ∧ s = .timestamp

instance (t s : DataType) : Decidable (Clash t s) := inferInstanceAs (Decidable (_ ∨ _))

theorem mergedType_right_comm : ∀ t s r : DataType, s ≠ .unknown → r ≠ .unknown →
    mergedType (mergedType t s) r = mergedType (mergedType t r) s := by decide

theorem mergedType_comm : ∀ t s : DataType, t ≠ .unknown → s ≠ .unknown → mergedType t s = mergedType s t := by
  decide

theorem mergedType_known : ∀ t s : DataType, t ≠ .unknown → s ≠ .unknown → mergedType t s ≠ .unknown := by
  decide

theorem mergedType_json : ∀ t s : DataType, mergedType t s = .json → t = .json := by decide

theorem mergedType_clash : ∀ t s : DataType, Clash t s → mergedType t s = .timestamp := by decide

theorem convertible_merged : ∀ t s : DataType, t ≠ .unknown → s ≠ .unknown → ¬Clash t s →
    convertible s (mergedType t s) = true := by decide

theorem convertible_widen : ∀ r t s : DataType, t ≠ .unknown → s ≠ .unknown → ¬Clash t s →
    convertible r t = true → convertible r (mergedType t s) = true := by decide

structure Wider (t s : DataType) : Prop where
  ancestor : mergedType t s = s
  converts : convertible t s = true

instance (t s : DataType) : Decidable (Wider t s) :=
  decidable_of_iff (mergedType t s = s ∧ convertible t s = true)
    ⟨fun h => ⟨h.1,h.2⟩,fun h => ⟨h.ancestor,h.converts⟩⟩

theorem Wider.refl (t : DataType) : Wider t t := ⟨if_pos rfl,by simp [convertible]⟩

theorem wider_merged : ∀ t s : DataType, t ≠ .unknown → s ≠ .unknown → ¬Clash t s →
    Wider t (mergedType t s) := by decide

theorem wider_trans : ∀ t s r : DataType, Wider t s → Wider s r → Wider t r := by decide

namespace Codec

variable [DecidableEq F] (c : Codec F T)

theorem isConvertible_eq (s t : DataType) : c.isConvertible s t = convertible s t := by
  cases s <;> cases t <;> rfl

def stamps (t : DataType) (v : Value F T) : Bool :=
  t = .timestamp && match c.convert .timestamp v with
    | .ok (_,true) => true
    | _ => false

def widened : Option DataType → Value F T → Option DataType
  | none, v => some v.dataType
  | some t, v => some (if c.stamps t v then t else mergedType t v.dataType)

def typed (vs : List (Value F T)) : Option DataType := vs.foldl c.widened none

def Stamped (vs : List (Value F T)) : Prop :=
  ∃ pre v post t, vs = pre ++ v :: post ∧ c.typed pre = some t ∧ c.stamps t v = true

def Clashes (vs : List (Value F T)) : Prop :=
  ∃ pre v post t, vs = pre ++ v :: post ∧ c.typed pre = some t ∧ Clash t v.dataType

theorem string_of_stamped {v r : Value F T} (h : c.convert .timestamp v = .ok (r,true)) :
    v.dataType = .string := by
  unfold convert at h
  cases ht : typeFromValue v with
  | error e =>
    rw [ht] at h
    cases h
  | ok s =>
    rw [ht] at h
    rw [Value.dataType,ht]
    cases s <;> first | rfl | cases h

variable {c} {vs ws : List (Value F T)} {v : Value F T} {t : DataType}

theorem stamps_iff : c.stamps t v = true ↔ t = .timestamp ∧ ∃ r, c.convert .timestamp v = .ok (r,true) := by
  unfold stamps
  rw [Bool.and_eq_true,decide_eq_true_iff]
  refine and_congr_right fun _ => ⟨fun h => ?_,fun ⟨r,hr⟩ => by rw [hr]⟩
  split at h
  · next r hr => exact ⟨r,hr⟩
  · cases h

theorem typed_concat : c.typed (vs ++ [v]) = c.widened (c.typed vs) v := by
  rw [typed,List.foldl_append]
  rfl

theorem Clashes.append (h : c.Clashes vs) : c.Clashes (vs ++ ws) := by
  obtain ⟨pre,v,post,t,rfl,ht,hc⟩ := h
  exact ⟨pre,v,post ++ ws,t,by simp,ht,hc⟩

theorem Stamped.append (h : c.Stamped vs) : c.Stamped (vs ++ ws) := by
  obtain ⟨pre,v,post,t,rfl,ht,hc⟩ := h
  exact ⟨pre,v,post ++ ws,t,by simp,ht,hc⟩

theorem typed_isSome (h : vs ≠ []) : ∃ t, c.typed vs = some t := by
  rw [← List.dropLast_append_getLast h,typed_concat]
  cases c.typed vs.dropLast <;> exact ⟨_,rfl⟩

theorem widened_known {t s : DataType} (h : c.widened (some t) v = some s) (ht : t ≠ .unknown)
    (hv : v.dataType ≠ .unknown) : s ≠ .unknown := by
  rw [widened,Option.some.injEq] at h
  rw [← h]
  split
  · exact ht
  · exact mergedType_known t v.dataType ht hv

theorem typed_known (hk : ∀ v ∈ vs, v.dataType ≠ .unknown) (h : c.typed vs = some t) : t ≠ .unknown := by
  induction vs using List.reverseRecOn generalizing t with
  | nil => cases h
  | append_singleton vs v ih =>
    rw [typed_concat] at h
    have hv := hk v (List.mem_append_right _ List.mem_cons_self)
    cases hvs : c.typed vs with
    | none =>
      rw [hvs] at h
      cases h
      exact hv
    | some s =>
      rw [hvs] at h
      exact widened_known h (ih (fun w hw => hk w (List.mem_append_left _ hw)) hvs) hv

theorem widened_wider {t s : DataType} (h : c.widened (some t) v = some s) (ht : t ≠ .unknown)
    (hv : v.dataType ≠ .unknown) (hc : ¬Clash t v.dataType) :
    Wider t s ∧ convertible v.dataType s = true ∧
      ∀ r, convertible r t = true → convertible r s = true := by
  rw [widened,Option.some.injEq] at h
  by_cases hs : c.stamps t v = true
  · rw [if_pos hs] at h
    obtain ⟨htime,r,hr⟩ := stamps_iff.mp hs
    subst h htime
    refine ⟨.refl _,?_,fun _ h => h⟩
    rw [c.string_of_stamped hr]
    rfl
  · rw [if_neg hs] at h
    subst h
    exact ⟨wider_merged t _ ht hv hc,convertible_merged t _ ht hv hc,
      fun r => convertible_widen r t _ ht hv hc⟩

theorem typed_covers (hk : ∀ v ∈ vs, v.dataType ≠ .unknown) (hc : ¬c.Clashes vs) (h : c.typed vs = some t) :
    ∀ v ∈ vs, convertible v.dataType t = true := by
  induction vs using List.reverseRecOn generalizing t with
  | nil => cases h
  | append_singleton vs v ih =>
    have hk' : ∀ w ∈ vs, w.dataType ≠ .unknown := fun w hw => hk w (List.mem_append_left _ hw)
    have hv := hk v (List.mem_append_right _ List.mem_cons_self)
    have hc' : ¬c.Clashes vs := fun h => hc h.append
    rw [typed_concat] at h
    cases hvs : c.typed vs with
    | none =>
      rw [hvs] at h
      cases h
      have hnil : vs = [] := by
        by_contra hne
        obtain ⟨t,ht⟩ := typed_isSome (c := c) hne
        cases hvs.symm.trans ht
      subst hnil
      intro w hw
      rw [List.nil_append,List.mem_singleton] at hw
      subst hw
      simp [convertible]
    | some s =>
      rw [hvs] at h
      have hnoclash : ¬Clash s v.dataType := fun hx => hc ⟨vs,v,[],s,rfl,hvs,hx⟩
      obtain ⟨-,hself,hold⟩ := widened_wider h (typed_known hk' hvs) hv hnoclash
      intro w hw
      rcases List.mem_append.mp hw with hw | hw
      · exact hold _ (ih hk' hc' hvs w hw)
      · rw [List.mem_singleton.mp hw]
        exact hself

theorem typed_grows (hk : ∀ v ∈ vs ++ ws, v.dataType ≠ .unknown) (hc : ¬c.Clashes (vs ++ ws))
    (h : c.typed vs = some t) : ∃ s, c.typed (vs ++ ws) = some s ∧ Wider t s := by
  induction ws using List.reverseRecOn with
  | nil => exact ⟨t,by rwa [List.append_nil],.refl t⟩
  | append_singleton ws v ih =>
    rw [← List.append_assoc] at hk hc ⊢
    have hk' : ∀ w ∈ vs ++ ws, w.dataType ≠ .unknown := fun w hw => hk w (List.mem_append_left _ hw)
    obtain ⟨s,hs,hwider⟩ := ih hk' fun h => hc h.append
    have hnoclash : ¬Clash s v.dataType := fun hx => hc ⟨vs ++ ws,v,[],s,rfl,hs,hx⟩
    have hv := hk v (List.mem_append_right _ List.mem_cons_self)
    rw [typed_concat,hs]
    exact ⟨_,rfl,wider_trans t s _ hwider (widened_wider rfl (typed_known hk' hs) hv hnoclash).1⟩

theorem typed_json (h : c.typed vs = some .json) : ∃ v ∈ vs, v.dataType = .json := by
  induction vs using List.reverseRecOn with
  | nil => cases h
  | append_singleton vs v ih =>
    rw [typed_concat] at h
    cases hvs : c.typed vs with
    | none =>
      rw [hvs,widened,Option.some.injEq] at h
      exact ⟨v,List.mem_append_right _ List.mem_cons_self,h⟩
    | some s =>
      rw [hvs,widened,Option.some.injEq] at h
      have hjson : s = .json := by
        split at h
        · exact h
        · exact mergedType_json s _ h
      obtain ⟨w,hw,hw'⟩ := ih (hjson ▸ hvs)
      exact ⟨w,List.mem_append_left _ hw,hw'⟩

theorem Clashes.uncovered {pre : List (Value F T)} (h : c.typed pre = some t) (hc : Clash t v.dataType) :
    c.typed (pre ++ [v]) = some .timestamp ∧ ∃ w ∈ pre ++ [v], w.dataType = .json := by
  have hstamps : ¬c.stamps t v = true := by
    rw [stamps_iff]
    rintro ⟨htime,r,hr⟩
    rw [c.string_of_stamped hr] at hc
    rcases hc with ⟨-,hc⟩ | ⟨-,hc⟩ <;> cases hc
  refine ⟨?_,?_⟩
  · rw [typed_concat,h,widened,if_neg hstamps,mergedType_clash t _ hc]
  · rcases hc with ⟨-,hv⟩ | ⟨ht,-⟩
    · exact ⟨v,List.mem_append_right _ List.mem_cons_self,hv⟩
    · subst ht
      obtain ⟨w,hw,hw'⟩ := typed_json h
      exact ⟨w,List.mem_append_left _ hw,hw'⟩

theorem calm_of_no_json (h : ∀ v ∈ vs, v.dataType ≠ .json) : ¬c.Clashes vs := by
  rintro ⟨pre,v,post,t,rfl,ht,⟨-,hv⟩ | ⟨hjson,-⟩⟩
  · exact h v (List.mem_append_right _ List.mem_cons_self) hv
  · subst hjson
    obtain ⟨w,hw,hw'⟩ := typed_json ht
    exact h w (List.mem_append_left _ hw) hw'

def mergedWith : Option DataType → DataType → Option DataType
  | none, s => some s
  | some t, s => some (mergedType t s)

theorem typed_unstamped (h : ¬c.Stamped vs) : c.typed vs = (vs.map Value.dataType).foldl mergedWith none := by
  induction vs using List.reverseRecOn with
  | nil => rfl
  | append_singleton vs v ih =>
    have hvs := ih fun hs => h hs.append
    rw [typed_concat,List.map_append,List.foldl_append,← hvs]
    cases ht : c.typed vs with
    | none => rfl
    | some t =>
      have hno : ¬c.stamps t v = true := fun hs => h ⟨vs,v,[],t,rfl,ht,hs⟩
      rw [widened,if_neg hno]
      rfl

theorem mergedWith_right_comm {s r : DataType} (hs : s ≠ .unknown) (hr : r ≠ .unknown) (t : Option DataType) :
    mergedWith (mergedWith t s) r = mergedWith (mergedWith t r) s := by
  cases t with
  | none => exact congrArg some (mergedType_comm s r hs hr)
  | some t => exact congrArg some (mergedType_right_comm t s r hs hr)

theorem typed_perm (hk : ∀ v ∈ vs, v.dataType ≠ .unknown) (hp : vs.Perm ws) (hvs : ¬c.Stamped vs)
    (hws : ¬c.Stamped ws) : c.typed vs = c.typed ws := by
  rw [typed_unstamped hvs,typed_unstamped hws]
  refine (hp.map Value.dataType).foldl_eq' (fun s hs r hr t => ?_) none
  obtain ⟨v,hv,rfl⟩ := List.mem_map.mp hs
  obtain ⟨w,hw,rfl⟩ := List.mem_map.mp hr
  exact mergedWith_right_comm (hk v hv) (hk w hw) t

end Codec

end Jitsu.Warehouse
