import Jitsu.Lib.LastWriter
import Jitsu.ReverseEtl.Validate

namespace Jitsu.ReverseEtl
open Checked Std

variable {J : Type}

structure DesiredRow (J : Type) where
  payload : String
  value : Effect J
  deriving DecidableEq, Repr

structure MemberRow (J : Type) where
  payload : Option String
  value : Option (Effect J)
  acceptedAt : ℕ
  sequence : ℕ
  uncertain : Bool
  deriving DecidableEq, Repr

structure OperationRow where
  sequence : ℕ
  status : OperationStatus
  batch : String
  deriving DecidableEq, Repr

abbrev Table (V : Type) := ExtTreeMap String V compare

structure LocalIndex (J : Type) where
  sourceKeys : ExtTreeSet String compare
  desired : Table (DesiredRow J)
  members : Table (MemberRow J)
  operations : Table OperationRow
  touched : ExtTreeSet String compare

namespace LocalIndex

def create : LocalIndex J := ⟨∅,∅,∅,∅,∅⟩

def desiredRow (effect : Effect J) : DesiredRow J := ⟨effect.payloadHash,effect⟩

def memberRow (effect : Effect J) (action : Action) (sequence acceptedAt : ℕ) (uncertain : Bool) :
    MemberRow J :=
  match action with
  | .upsert => ⟨some effect.payloadHash,some effect,acceptedAt,sequence,uncertain⟩
  | .remove => ⟨none,none,acceptedAt,sequence,uncertain⟩

def appendEffect [DecidableEq J] (desired : Table (DesiredRow J)) (effect : Effect J) :
    Except Failure (Table (DesiredRow J)) :=
  match desired[effect.identityHash]? with
  | none => .ok (desired.insert effect.identityHash (desiredRow effect))
  | some old => do
    require (old.value = effect) "Conflicting payloads for shared identity"
    pure desired

def appendRow [DecidableEq J] (l : LocalIndex J) (row : String × List (Effect J)) :
    Except Failure (LocalIndex J) := do
  require (row.1 ∉ l.sourceKeys) "Duplicate snapshot source key"
  let desired ← row.2.foldlM appendEffect l.desired
  pure { l with sourceKeys := l.sourceKeys.insert row.1, desired := desired }

def append [DecidableEq J] (l : LocalIndex J) (rows : List (String × List (Effect J))) :
    Except Failure (LocalIndex J) :=
  rows.foldlM appendRow l

def restoreDesired (l : LocalIndex J) (values : List (Effect J)) : Except Failure (LocalIndex J) :=
  values.foldlM (fun l effect => do
    require (effect.identityHash ∉ l.desired) "UNIQUE constraint failed: desired.identity"
    pure { l with desired := l.desired.insert effect.identityHash (desiredRow effect) }) l

def offerMember (members : Table (MemberRow J)) (identity : String) (row : MemberRow J) :
    Table (MemberRow J) :=
  match members[identity]? with
  | none => members.insert identity row
  | some old => if old.sequence < row.sequence then members.insert identity row else members

def apply (l : LocalIndex J) (effect : Effect J) (action : Action) (sequence acceptedAt : ℕ)
    (uncertain : Bool) : LocalIndex J :=
  let row := memberRow effect action sequence acceptedAt uncertain
  { l with members := offerMember l.members effect.identityHash row }

def baselineRow (m : Member J) : MemberRow J :=
  memberRow m.effect .upsert 0 m.acceptedAt m.uncertain

def restoreMembers (l : LocalIndex J) (values : List (Member J)) : LocalIndex J :=
  values.foldl (fun l m => l.apply m.effect .upsert 0 m.acceptedAt m.uncertain) l

inductive PageKind where
  | additions
  | removals
  deriving DecidableEq, Repr

def due (refreshBefore : Option ℤ) (m : MemberRow J) : Bool :=
  m.uncertain || refreshBefore.any fun t => (m.acceptedAt : ℤ) ≤ t

def needsAddition (refreshBefore : Option ℤ) (d : DesiredRow J) : Option (MemberRow J) → Bool
  | none => true
  | some m => m.value.isNone || m.payload.any (· ≠ d.payload) || due refreshBefore m

def additions (l : LocalIndex J) (after : String) (refreshBefore : Option ℤ) (unpreparedOnly : Bool) :
    List (String × DesiredRow J) :=
  l.desired.toList.filter fun (i,d) =>
    after < i && needsAddition refreshBefore d l.members[i]? && !(unpreparedOnly && l.touched.contains i)

def removals (l : LocalIndex J) (after : String) : List (Effect J) :=
  l.members.toList.filterMap fun (i,m) => if after < i ∧ i ∉ l.desired then m.value else none

def page (l : LocalIndex J) (kind : PageKind) (after : String) (limit : ℕ) (refreshBefore : Option ℤ)
    (unpreparedOnly : Bool) : List (Effect J) :=
  match kind with
  | .additions => ((l.additions after refreshBefore unpreparedOnly).map (·.2.value)).take limit
  | .removals => (l.removals after).take limit

def replacementPage (l : LocalIndex J) (after : String) (limit : ℕ) : List (Effect J) :=
  ((l.desired.toList.filter fun (i,_) => after < i && !l.touched.contains i).map (·.2.value)).take limit

def applyReplacement (l : LocalIndex J) : LocalIndex J :=
  { l with members := l.members.filter fun i _ => l.desired.contains i }

def comparison (l : LocalIndex J) (refreshBefore : Option ℤ) : SnapshotSummary :=
  let rows := l.desired.toList.map fun (i,d) => (d,l.members[i]?)
  let present := fun (m : Option (MemberRow J)) => m.any fun m => m.value.isSome
  let added := rows.countP fun r => !present r.2
  let changed := rows.countP fun r => present r.2 && r.2.any fun m => m.payload.any (· ≠ r.1.payload)
  let refresh := rows.countP fun r => present r.2 &&
    r.2.any fun m => m.payload = some r.1.payload && due refreshBefore m
  let members := l.members.toList.filter fun (_,m) => m.value.isSome
  { baselineMembers := members.length
    uniqueMembers := rows.length
    newMembers := added
    changedMembers := changed
    refreshMembers := refresh
    unchangedMembers := rows.length - added - changed - refresh
    removals := members.countP fun (i,_) => !l.desired.contains i
    projectedMembers := none
    excludedRows := none }

def artifactPages {α : Type} (size : ℕ) (bytesOf : α → ℕ) :
    List α → List α → ℕ → Except Failure (List (List α))
  | [], page, _ => pure (if page = [] then [] else [page])
  | value :: rows, page, bytes => do
    let length := bytesOf value
    require (length + 2 ≤ 15000000) "Member exceeds artifact page limit"
    if page ≠ [] ∧ (page.length = size ∨ 15000000 < bytes + length + 1) then
      (page :: ·) <$> artifactPages size bytesOf rows [value] (2 + length)
    else
      let separator := if page = [] then 0 else 1
      artifactPages size bytesOf rows (page ++ [value]) (bytes + length + separator)

def desiredValues (l : LocalIndex J) : List (Effect J) := l.desired.toList.map (·.2.value)

def desiredPages (env : Env J) (l : LocalIndex J) : Except Failure (List (List (Effect J))) :=
  artifactPages 1000 env.effectBytes l.desiredValues [] 2

def memberValues (l : LocalIndex J) : List (Member J) :=
  l.members.toList.filterMap fun (_,m) => m.value.map fun effect => ⟨effect,m.acceptedAt,m.uncertain⟩

def memberPages (env : Env J) (l : LocalIndex J) : Except Failure (List (List (Member J))) :=
  artifactPages 1000 env.memberBytes l.memberValues [] 2

def entries (l : LocalIndex J) : ℕ := l.memberValues.length

def bytes (env : Env J) (l : LocalIndex J) : ℕ := (l.memberValues.map fun m => env.effectBytes m.effect).sum

def Keyed (l : LocalIndex J) : Prop :=
  ∀ i d, l.desired[i]? = some d → d = desiredRow d.value ∧ d.value.identityHash = i

@[simp] theorem create_desired : (create : LocalIndex J).desired = ∅ := rfl

@[simp] theorem create_members : (create : LocalIndex J).members = ∅ := rfl

@[simp] theorem create_operations : (create : LocalIndex J).operations = ∅ := rfl

@[simp] theorem create_touched : (create : LocalIndex J).touched = ∅ := rfl

variable {i : String}

@[simp] theorem offerMember_getElem? {members : Table (MemberRow J)} {j : String} {row : MemberRow J} :
    (offerMember members i row)[j]? =
      if i = j then LastWriter.offer MemberRow.sequence members[i]? row else members[j]? := by
  unfold offerMember LastWriter.offer
  by_cases hij : i = j
  · subst hij
    rcases hm : members[i]? with _ | old
    · simp
    · by_cases hs : old.sequence < row.sequence
      · simp [hs]
      · simp [hs,hm]
  · rcases hm : members[i]? with _ | old
    · simp [hij,ExtTreeMap.getElem?_insert]
    · by_cases hs : old.sequence < row.sequence
      · simp [hs,hij,ExtTreeMap.getElem?_insert]
      · simp [hs,hij]

variable {l : LocalIndex J} {e : Effect J} {action : Action} {u : Bool}

@[simp] theorem apply_members {n t : ℕ} :
    (l.apply e action n t u).members =
      offerMember l.members e.identityHash (memberRow e action n t u) := rfl

@[simp] theorem memberRow_sequence {n t : ℕ} :
    (memberRow e action n t u).sequence = n := by cases action <;> rfl

theorem restoreMembers_getElem? {values : List (Member J)} :
    (l.restoreMembers values).members[i]? = (l.members[i]?).or
      ((values.find? (·.effect.identityHash = i)).map baselineRow) := by
  induction values generalizing l with
  | nil => simp [restoreMembers]
  | cons m ms ih =>
    rw [restoreMembers,List.foldl_cons,← restoreMembers,ih,apply_members,offerMember_getElem?,
      List.find?_cons]
    by_cases hm : m.effect.identityHash = i
    · subst hm
      rcases hl : l.members[m.effect.identityHash]? with _ | old <;>
        simp [LastWriter.offer,baselineRow]
    · simp [hm]

theorem restoreMembers_frame (l : LocalIndex J) (values : List (Member J)) :
    (l.restoreMembers values).desired = l.desired ∧
    (l.restoreMembers values).operations = l.operations ∧
    (l.restoreMembers values).touched = l.touched := by
  induction values generalizing l with
  | nil => exact ⟨rfl,rfl,rfl⟩
  | cons m ms ih =>
    rw [restoreMembers,List.foldl_cons,← restoreMembers]
    exact ih _

theorem artifactPages_flatten {α : Type} {size : ℕ} {bytesOf : α → ℕ} {rows page : List α} {bytes : ℕ}
    {pages : List (List α)} (h : artifactPages size bytesOf rows page bytes = .ok pages) :
    pages.flatten = page ++ rows := by
  induction rows generalizing page bytes pages with
  | nil =>
    simp only [artifactPages,pure_eq_ok] at h
    subst h
    cases page <;> simp
  | cons v rows ih =>
    simp only [artifactPages,bind_eq_ok,require_eq_ok] at h
    obtain ⟨_,_,h⟩ := h
    split at h
    · obtain ⟨rest,hr,rfl⟩ := map_eq_ok.mp h
      simp [ih hr]
    · simpa using ih h

theorem restoreDesired_append {xs ys : List (Effect J)} :
    l.restoreDesired (xs ++ ys) = l.restoreDesired xs >>= fun k => k.restoreDesired ys :=
  List.foldlM_append

variable {values : List (Effect J)}

theorem restoreDesired_total
    (hn : (values.map Effect.identityHash).Nodup) (hl : ∀ e ∈ values, e.identityHash ∉ l.desired) :
    ∃ l', l.restoreDesired values = .ok l' := by
  induction values generalizing l with
  | nil => exact ⟨l,rfl⟩
  | cons e es ih =>
    rw [List.map_cons,List.nodup_cons] at hn
    obtain ⟨l',h'⟩ := @ih { l with desired := l.desired.insert e.identityHash (desiredRow e) } hn.2 (by
      intro x hx hmem
      rcases ExtTreeMap.mem_insert.mp hmem with he | hd
      · exact hn.1 (List.mem_map.mpr ⟨x,hx,(Std.compare_eq_iff_eq.mp he).symm⟩)
      · exact hl x (List.mem_cons_of_mem _ hx) hd)
    refine ⟨l',?_⟩
    rw [restoreDesired,List.foldlM_cons,bind_eq_ok]
    refine ⟨_,?_,h'⟩
    simp [hl e (by simp)]

theorem restoreDesired_getElem? {l' : LocalIndex J}
    (h : l.restoreDesired values = .ok l') :
    l'.desired[i]? = (l.desired[i]?).or ((values.find? (·.identityHash = i)).map desiredRow) := by
  induction values generalizing l with
  | nil =>
    cases h
    simp
  | cons e es ih =>
    rw [restoreDesired,List.foldlM_cons,bind_eq_ok] at h
    obtain ⟨k,hk,h⟩ := h
    simp only [bind_eq_ok,require_eq_ok,pure_eq_ok] at hk
    obtain ⟨_,hfresh,rfl⟩ := hk
    rw [ih h,List.find?_cons,ExtTreeMap.getElem?_insert]
    by_cases he : e.identityHash = i
    · subst he
      simp [ExtTreeMap.getElem?_eq_none hfresh]
    · simp [he]

theorem restoreDesired_frame {l' : LocalIndex J}
    (h : l.restoreDesired values = .ok l') :
    l'.members = l.members ∧ l'.operations = l.operations ∧ l'.touched = l.touched := by
  refine foldlM_ok (I := fun k => k.members = l.members ∧ k.operations = l.operations ∧
    k.touched = l.touched) ?_ ⟨rfl,rfl,rfl⟩ h
  intro e _ k k' hk he
  simp only [bind_eq_ok,require_eq_ok,pure_eq_ok] at he
  obtain ⟨_,_,rfl⟩ := he
  exact hk

theorem appendEffect_keyed [DecidableEq J] {desired desired' : Table (DesiredRow J)}
    (hk : ∀ i d, desired[i]? = some d → d = desiredRow d.value ∧ d.value.identityHash = i)
    (h : appendEffect desired e = .ok desired') :
    ∀ i d, desired'[i]? = some d → d = desiredRow d.value ∧ d.value.identityHash = i := by
  unfold appendEffect at h
  split at h
  · cases h
    intro i d hd
    rw [ExtTreeMap.getElem?_insert] at hd
    split at hd
    · cases hd
      exact ⟨rfl,Std.compare_eq_iff_eq.mp ‹_›⟩
    · exact hk i d hd
  · simp only [bind_eq_ok,pure_eq_ok] at h
    obtain ⟨_,_,rfl⟩ := h
    exact hk

variable {rows : List (String × List (Effect J))}

theorem append_keyed [DecidableEq J] {l' : LocalIndex J}
    (hk : l.Keyed) (h : l.append rows = .ok l') : l'.Keyed := by
  refine foldlM_ok (I := Keyed) ?_ hk h
  intro row _ l l' hk hrow
  simp only [appendRow,bind_eq_ok,pure_eq_ok] at hrow
  obtain ⟨_,_,desired,hd,rfl⟩ := hrow
  exact foldlM_ok (I := fun d : Table (DesiredRow J) => ∀ i r, d[i]? = some r → _)
    (fun _ _ _ _ => appendEffect_keyed) hk hd

theorem appendEffect_mem [DecidableEq J] {desired desired' : Table (DesiredRow J)}
    (h : appendEffect desired e = .ok desired') (hi : i ∈ desired') : i ∈ desired ∨ i = e.identityHash := by
  unfold appendEffect at h
  split at h
  · cases h
    rcases ExtTreeMap.mem_insert.mp hi with he | hd
    · exact .inr (Std.compare_eq_iff_eq.mp he).symm
    · exact .inl hd
  · simp only [bind_eq_ok,pure_eq_ok] at h
    obtain ⟨_,_,rfl⟩ := h
    exact .inl hi

theorem append_hashed [DecidableEq J] {l' : LocalIndex J}
    (hl : "" ∉ l.desired) (hr : ∀ row ∈ rows, ∀ e ∈ row.2, e.identityHash ≠ "")
    (h : l.append rows = .ok l') : "" ∉ l'.desired := by
  refine foldlM_ok (I := fun k => "" ∉ k.desired) ?_ hl h
  intro row hrow k k' hk happ
  simp only [appendRow,bind_eq_ok,pure_eq_ok] at happ
  obtain ⟨_,_,desired,hd,rfl⟩ := happ
  refine foldlM_ok (I := fun d : Table (DesiredRow J) => "" ∉ d) ?_ hk hd
  intro e he d d' hmem hadd hin
  rcases appendEffect_mem hadd hin with hin | hin
  · exact hmem hin
  · exact hr row hrow e he hin.symm

theorem append_frame [DecidableEq J] {l' : LocalIndex J}
    (h : l.append rows = .ok l') :
    l'.members = l.members ∧ l'.operations = l.operations ∧ l'.touched = l.touched := by
  refine foldlM_ok (I := fun k => k.members = l.members ∧ k.operations = l.operations ∧
    k.touched = l.touched) ?_ ⟨rfl,rfl,rfl⟩ h
  intro row _ k k' hk hrow
  simp only [appendRow,bind_eq_ok,pure_eq_ok] at hrow
  obtain ⟨_,_,_,_,rfl⟩ := hrow
  exact hk

theorem mem_desiredValues :
    e ∈ l.desiredValues ↔ ∃ (i : String) (d : DesiredRow J), l.desired[i]? = some d ∧ d.value = e := by
  simp [desiredValues,ExtTreeMap.mem_toList_iff_getElem?_eq_some]

theorem desiredValues_nodup (hk : l.Keyed) :
    (l.desiredValues.map Effect.identityHash).Nodup := by
  have hkeys : l.desiredValues.map Effect.identityHash = l.desired.toList.map Prod.fst := by
    rw [desiredValues,List.map_map]
    apply List.map_congr_left
    rintro ⟨i,d⟩ hd
    exact (hk i d (ExtTreeMap.mem_toList_iff_getElem?_eq_some.mp hd)).2
  rw [hkeys,ExtTreeMap.map_fst_toList_eq_keys]
  exact ExtTreeMap.nodup_keys

theorem desiredValues_find? (hk : l.Keyed) :
    (l.desiredValues.find? (·.identityHash = i)).map desiredRow = l.desired[i]? := by
  rcases hf : l.desiredValues.find? (·.identityHash = i) with _ | e
  · have hnone := List.find?_eq_none.mp hf
    rcases hd : l.desired[i]? with _ | d
    · rw [hf,Option.map_none]
    · have := hnone d.value (mem_desiredValues.mpr ⟨i,d,hd,rfl⟩)
      simp [(hk i d hd).2] at this
  · have hi : e.identityHash = i := by simpa using List.find?_some hf
    obtain ⟨j,d,hd,rfl⟩ := mem_desiredValues.mp (List.mem_of_find?_eq_some hf)
    obtain ⟨hrow,hj⟩ := hk j d hd
    rw [hj] at hi
    subst hi
    rw [hd,hf,Option.map_some,← hrow]

theorem empty_lt (hi : i ≠ "") : "" < i := by
  rw [String.lt_iff_toList_lt]
  rcases hl : i.toList with _ | ⟨c,cs⟩
  · exact absurd (String.toList_inj.mp (hl.trans String.toList_empty.symm)) hi
  · simp

variable {limit : ℕ}

theorem page_additions_eq_nil {refreshBefore : Option ℤ}
    (hlimit : 0 < limit) (hk : "" ∉ l.desired) :
    l.page .additions "" limit refreshBefore false = [] ↔
      ∀ (i : String) (d : DesiredRow J), l.desired[i]? = some d →
        needsAddition refreshBefore d l.members[i]? = false := by
  simp only [page,List.take_eq_nil_iff,List.map_eq_nil_iff,hlimit.ne',false_or,additions,
    List.filter_eq_nil_iff,Prod.forall,ExtTreeMap.mem_toList_iff_getElem?_eq_some]
  refine forall₃_congr fun i d hd => ?_
  have hi : i ≠ "" := fun hi => hk (hi ▸ ExtTreeMap.mem_iff_isSome_getElem?.mpr (by simp [hd]))
  simp [empty_lt hi]

theorem page_removals_eq_nil {refreshBefore : Option ℤ} {b : Bool}
    (hlimit : 0 < limit) (hk : "" ∉ l.members) :
    l.page .removals "" limit refreshBefore b = [] ↔
      ∀ (i : String) (m : MemberRow J), l.members[i]? = some m → m.value ≠ none → i ∈ l.desired := by
  simp only [page,List.take_eq_nil_iff,hlimit.ne',false_or,removals,List.filterMap_eq_nil_iff,
    Prod.forall,ExtTreeMap.mem_toList_iff_getElem?_eq_some]
  refine forall₃_congr fun i m hm => ?_
  have hi : i ≠ "" := fun hi => hk (hi ▸ ExtTreeMap.mem_iff_isSome_getElem?.mpr (by simp [hm]))
  by_cases hd : i ∈ l.desired <;> simp [hd,empty_lt hi]

@[simp] theorem applyReplacement_getElem? :
    l.applyReplacement.members[i]? = if i ∈ l.desired then l.members[i]? else none := by
  simp only [applyReplacement,ExtTreeMap.getElem?_filter']
  rcases hm : l.members[i]? with _ | m
  · simp
  · by_cases hd : i ∈ l.desired <;> simp [hd]

end LocalIndex

end Jitsu.ReverseEtl
