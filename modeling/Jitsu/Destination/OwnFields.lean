import Jitsu.Destination.Transfers

namespace Jitsu.Destination

open Lib Ingest Engine Checked

namespace Container

variable (js : Engine) (keep : Bool) (context : Option Json) (c : Container)

def copy : Transfer := ⟨context,c.omitted⟩

def overlaid : Fields := c.overlays.flatMap (Transfer.writes keep)

def held : Json := (Entries.latest c.holder ((c.copy context).writes keep)).getD (.obj [])

def settled (changed : Json) : Fields :=
  if c.overlays.isEmpty then merge c.start ((c.copy context).writes keep)
  else Fields.set (merge c.start ((c.copy context).writes keep)) c.holder changed

def grouped (fields : Fields) : Fields :=
  merge fields (c.groupId.toList.map (fun value => ("group_id",converts keep value)))

structure Copies : Prop where
  copied : context ≠ some .null
  sources : ∀ t ∈ c.overlays, t.source ≠ some .null
  changed : ∃ changed, assignAll js (c.held keep context) (c.overlaid keep) = .ok changed

structure Stays (name : String) (value : Json) : Prop where
  named : name ≠ "__proto__"
  overlaid : name = c.holder → assignAll js value (c.overlaid keep) = .ok value
  grouped : name = "group_id" → ∀ groupId, c.groupId = some groupId → converts keep groupId = value

def Supplies (name : String) (value : Json) : Prop :=
  name = "group_id" ∧ c.groupId.map (converts keep) = some value ∨
    name = c.holder ∧ c.overlays ≠ [] ∧ assignAll js (.obj []) (c.overlaid keep) = .ok value

variable {js keep context c}

theorem get_start_proto : Fields.get c.start "__proto__" = none := by
  unfold start
  split
  · rfl
  · simp [Fields.get,Entries.find,c.plain]

theorem get_copied (h : ¬ c.overlays.isEmpty) :
    Fields.get (merge c.start ((c.copy context).writes keep)) c.holder = some (c.held keep context) := by
  have hstart : Fields.get c.start c.holder = some (.obj []) := by simp [start,h,Fields.get,Entries.find]
  rw [get_merge c.plain,hstart]
  unfold held
  cases Entries.latest c.holder ((c.copy context).writes keep) <;> rfl

theorem fill_eq_ok {x : Json} : c.fill js keep context = .ok x ↔
    context ≠ some .null ∧ (∀ t ∈ c.overlays, t.source ≠ some .null) ∧
      ∃ changed, assignAll js (c.held keep context) (c.overlaid keep) = .ok changed ∧
        x = .obj (c.grouped keep (c.settled keep context changed)) := by
  have hcopy : ∀ y, transferFunc js keep (.obj c.start) context c.omitted = .ok y ↔
      context ≠ some .null ∧ y = .obj (merge c.start ((c.copy context).writes keep)) :=
    fun y => transferFunc_obj (t := c.copy context)
  have hknown : ∀ y, c.overlays.foldlM (fun target t => js.within target c.holder
        (fun inner => transferFunc js keep inner t.source t.omitted))
        (.obj (merge c.start ((c.copy context).writes keep))) = .ok y ↔
      (∀ t ∈ c.overlays, t.source ≠ some .null) ∧
        ∃ changed, assignAll js (c.held keep context) (c.overlaid keep) = .ok changed ∧
          y = .obj (c.settled keep context changed) := by
    intro y
    by_cases he : c.overlays.isEmpty
    · have hsettled : ∀ changed, c.settled keep context changed =
          merge c.start ((c.copy context).writes keep) := fun changed => if_pos he
      rw [List.isEmpty_iff] at he
      have hoverlaid : c.overlaid keep = [] := by rw [overlaid,he,List.flatMap_nil]
      rw [he,List.foldlM_nil,pure_eq_ok,hoverlaid]
      simp only [hsettled]
      exact ⟨fun h => ⟨nofun,_,rfl,h.symm⟩,fun ⟨_,_,_,h⟩ => h.symm⟩
    · rw [overlay_obj c.plain (get_copied he)]
      simp [settled,overlaid,he]
  unfold fill
  rw [bind_eq_ok]
  simp only [hcopy,bind_eq_ok]
  constructor
  · rintro ⟨_,⟨hc,rfl⟩,y,hy,hx⟩
    obtain ⟨ho,changed,hchanged,rfl⟩ := (hknown y).mp hy
    exact ⟨hc,ho,changed,hchanged,transferValueFunc_obj.mp hx⟩
  · rintro ⟨hc,ho,changed,hchanged,rfl⟩
    exact ⟨_,⟨hc,rfl⟩,_,(hknown _).mpr ⟨ho,changed,hchanged,rfl⟩,transferValueFunc_obj.mpr rfl⟩

theorem fill_iff_copies : (∃ x, c.fill js keep context = .ok x) ↔ c.Copies js keep context := by
  constructor
  · rintro ⟨x,h⟩
    obtain ⟨hc,ho,changed,hchanged,_⟩ := fill_eq_ok.mp h
    exact ⟨hc,ho,changed,hchanged⟩
  · rintro ⟨hc,ho,changed,hchanged⟩
    exact ⟨_,fill_eq_ok.mpr ⟨hc,ho,changed,hchanged,rfl⟩⟩

theorem get_settled_ne {name : String} (hn : name ≠ c.holder) (changed : Json) :
    Fields.get (c.settled keep context changed) name =
      Fields.get (merge c.start ((c.copy context).writes keep)) name := by
  unfold settled
  split
  · rfl
  · exact (Entries.find_put _ _ _ _).trans (if_neg (Ne.symm hn))

theorem get_settled_holder {value changed : Json}
    (hv : Entries.latest c.holder ((c.copy context).writes keep) = some value)
    (hc : assignAll js (c.held keep context) (c.overlaid keep) = .ok changed) :
    Fields.get (c.settled keep context changed) c.holder = some value ↔
      assignAll js value (c.overlaid keep) = .ok value := by
  have hheld : c.held keep context = value := by rw [held,hv,Option.getD_some]
  rw [hheld] at hc
  rw [hc,Except.ok.injEq]
  unfold settled
  split
  case isTrue he =>
    rw [overlaid,List.isEmpty_iff.mp he] at hc
    rw [get_merge c.plain,hv]
    exact iff_of_true rfl (Except.ok.inj hc).symm
  case isFalse =>
    have hset : Fields.get (Fields.set (merge c.start ((c.copy context).writes keep)) c.holder changed)
        c.holder = some changed := (Entries.find_put _ _ _ _).trans (if_pos rfl)
    rw [hset,Option.some.injEq]

theorem get_grouped_ne {name : String} (hp : name ≠ "__proto__") (hn : name ≠ "group_id") (fields : Fields) :
    Fields.get (c.grouped keep fields) name = Fields.get fields name := by
  have hnone : Entries.latest name (c.groupId.toList.map (fun value => ("group_id",converts keep value))) =
      none := by
    rw [Entries.latest_eq_none]
    simp [Ne.symm hn]
  rw [grouped,get_merge hp,hnone,Option.none_or]

theorem fill_entry {x : Json} (h : c.fill js keep context = .ok x) :
    ∃ fields, x = .obj fields ∧ ∀ name value,
      (name ≠ "__proto__" → Entries.latest name ((c.copy context).writes keep) = some value) →
        (Fields.get fields name = some value ↔ c.Stays js keep name value) := by
  obtain ⟨-,-,changed,hchanged,rfl⟩ := fill_eq_ok.mp h
  refine ⟨_,rfl,fun name value hlatest => ?_⟩
  by_cases hp : name = "__proto__"
  · have hnone : Fields.get (c.grouped keep (c.settled keep context changed)) name = none := by
      rw [hp,grouped,get_merge_proto,get_settled_ne (Ne.symm c.plain),get_merge_proto,get_start_proto]
    rw [hnone]
    exact iff_of_false nofun (fun hs => hs.named hp)
  · specialize hlatest hp
    have hcopied : Fields.get (merge c.start ((c.copy context).writes keep)) name = some value := by
      rw [get_merge hp,hlatest,Option.some_or]
    by_cases hg : name = "group_id"
    · have hapart : name ≠ c.holder := fun hh => c.apart (hh.symm.trans hg)
      have hsettled : Fields.get (c.settled keep context changed) name = some value :=
        (get_settled_ne hapart changed).trans hcopied
      rw [grouped,get_merge hp,hsettled]
      cases hid : c.groupId with
      | none => exact iff_of_true rfl ⟨hp,fun h => absurd h hapart,fun _ g h => nomatch hid.symm.trans h⟩
      | some groupId =>
        have hlast : Entries.latest name [("group_id",converts keep groupId)] =
            some (converts keep groupId) := by simp [Entries.latest,hg]
        have hsome : ∀ g, c.groupId = some g → groupId = g :=
          fun g h => Option.some.inj (hid.symm.trans h)
        rw [Option.toList_some,List.map_singleton,hlast,Option.some_or,Option.some.injEq]
        exact ⟨fun h => ⟨hp,fun hh => absurd hh hapart,fun _ g hgid => hsome g hgid ▸ h⟩,
          fun hs => hs.grouped hg groupId hid⟩
    · rw [get_grouped_ne hp hg]
      by_cases hh : name = c.holder
      · subst hh
        rw [get_settled_holder hlatest hchanged]
        exact ⟨fun ha => ⟨hp,fun _ => ha,fun h => absurd h hg⟩,fun hs => hs.overlaid rfl⟩
      · rw [get_settled_ne hh,hcopied]
        exact iff_of_true rfl ⟨hp,fun h => absurd h hh,fun h => absurd h hg⟩

theorem fill_omitted {x : Json} (h : c.fill js keep context = .ok x) :
    ∃ fields, x = .obj fields ∧ ∀ name value, Entries.latest name ((c.copy context).writes keep) = none →
      (Fields.get fields name = some value ↔ c.Supplies js keep name value) := by
  obtain ⟨-,-,changed,hchanged,rfl⟩ := fill_eq_ok.mp h
  refine ⟨_,rfl,fun name value hlatest => ?_⟩
  have hsettled : name ≠ c.holder → Fields.get (c.settled keep context changed) name = none := by
    intro hh
    rw [get_settled_ne hh]
    by_cases hp : name = "__proto__"
    · rw [hp,get_merge_proto,get_start_proto]
    · rw [get_merge hp,hlatest,Option.none_or]
      unfold start
      split
      · rfl
      · simp [Fields.get,Entries.find,Ne.symm hh]
  unfold Supplies
  by_cases hg : name = "group_id"
  · have hapart : name ≠ c.holder := fun hh => c.apart (hh.symm.trans hg)
    rw [grouped,get_merge (by rw [hg]; decide),hsettled hapart,Option.or_none,hg]
    have hone : ¬("group_id" = c.holder) := hg ▸ hapart
    cases c.groupId with
    | none => simp [Entries.latest,hone]
    | some groupId => simp [Entries.latest,hone]
  · by_cases hh : name = c.holder
    · subst hh
      have hheld : c.held keep context = .obj [] := by rw [held,hlatest,Option.getD_none]
      rw [hheld] at hchanged
      rw [get_grouped_ne c.plain hg,settled,hchanged,Except.ok.injEq]
      split
      case isTrue he =>
        rw [get_merge c.plain,hlatest,start,if_pos he]
        simp [List.isEmpty_iff.mp he,hg,Fields.get,Entries.find]
      case isFalse he =>
        have hset : Fields.get (Fields.set (merge c.start ((c.copy context).writes keep)) c.holder changed)
            c.holder = some changed := (Entries.find_put _ _ _ _).trans (if_pos rfl)
        rw [hset]
        simp [hg,List.isEmpty_iff.not.mp he]
    · have hnone : Fields.get (c.grouped keep (c.settled keep context changed)) name = none := by
        by_cases hp : name = "__proto__"
        · rw [hp,grouped,get_merge_proto,← hp,hsettled hh]
        · rw [get_grouped_ne hp hg,hsettled hh]
      rw [hnone]
      simp [hg,hh]

end Container

namespace Plan

variable (js : Engine) (keep : Bool) (event : Fields) (p : Plan)

def moved : List String := p.container.elim [] Container.moved

def own : Transfer := ⟨some (.obj event),p.omitted⟩

def chosen : Fields := p.users.flatMap (Transfer.writes keep)

structure Copies : Prop where
  container : ∀ c, p.container = some c → c.Copies js keep (Fields.get event "context")
  users : ∀ t ∈ p.users, t.source ≠ some .null

def Stays (e : String × Json) : Prop :=
  match p.container with
  | none => keep = true ∨ renames keep e.1 ≠ "__proto__"
  | some c =>
    match Entries.latest "context" (p.chosen keep) with
    | none =>
      if e.1 ∈ c.omitted then c.Supplies js keep (renames keep e.1) (converts keep e.2)
      else c.Stays js keep (renames keep e.1) (converts keep e.2)
    | some replacement => property (some replacement) (renames keep e.1) = some (converts keep e.2)

structure Keeps (typed : Bool) : Prop where
  named : ∀ e ∈ event, e.1 ∉ p.omitted → renames keep e.1 ≠ "__proto__"
  typed : typed = true → ∀ e ∈ event, e.1 ∉ p.omitted → renames keep e.1 = "type" →
    Fields.get event "type" = some (converts keep e.2)
  context : ∀ context, Fields.get event "context" = some (.obj context) →
    ∀ e ∈ context, e.1 ∉ p.moved → p.Stays js keep e

end Plan

structure Preserves (keep : Bool) (event : Fields) (omitted moved : List String) (row : Json) : Prop where
  own : ∀ e ∈ event, e.1 ∉ omitted →
    property (some row) (renames keep e.1) = some (converts keep e.2)
  context : ∀ context, Fields.get event "context" = some (.obj context) → ∀ e ∈ context, e.1 ∉ moved →
    property (property (some row) "context") (renames keep e.1) = some (converts keep e.2)

structure Distinct (event : Fields) : Prop where
  fields : DistinctNames event
  context : ∀ context, Fields.get event "context" = some (.obj context) → DistinctNames context

namespace Plan

variable {js : Engine} {keep : Bool} {event : Fields} {p : Plan}

theorem hold_some {c : Container} (hc : p.container = some c) {held : Fields} :
    p.hold js keep event = .ok held ↔
      ∃ filled, c.fill js keep (Fields.get event "context") = .ok filled ∧ held = [("context",filled)] := by
  unfold hold
  rw [hc,bind_eq_ok]
  simp only [Except.ok.injEq,eq_comm]

theorem hold_none (hc : p.container = none) : p.hold js keep event = .ok [] := by
  unfold hold
  rw [hc]

theorem describe_eq_ok {held : Fields} {x : Json} : p.describe js keep event held = .ok x ↔
    (∀ t ∈ p.users, t.source ≠ some .null) ∧
      x = .obj (merge (merge held (p.chosen keep)) ((p.own event).writes keep)) := by
  have hown : ∀ fields, transferFunc js keep (.obj fields) (some (.obj event)) p.omitted = .ok x ↔
      some (.obj event) ≠ some Json.null ∧ x = .obj (merge fields ((p.own event).writes keep)) :=
    fun fields => transferFunc_obj (t := p.own event)
  unfold describe
  rw [bind_eq_ok]
  constructor
  · rintro ⟨_,hu,hx⟩
    obtain ⟨hn,rfl⟩ := transferAll_obj.mp hu
    exact ⟨hn,((hown _).mp hx).2⟩
  · rintro ⟨hn,rfl⟩
    exact ⟨_,transferAll_obj.mpr ⟨hn,rfl⟩,(hown _).mpr ⟨nofun,rfl⟩⟩

theorem build_eq_ok {x : Json} : p.build js keep event = .ok x ↔
    ∃ held, p.hold js keep event = .ok held ∧ (∀ t ∈ p.users, t.source ≠ some .null) ∧
      x = .obj (merge (merge held (p.chosen keep)) ((p.own event).writes keep)) := by
  unfold build
  rw [bind_eq_ok]
  simp only [describe_eq_ok]

theorem hold_iff_copies : (∃ held, p.hold js keep event = .ok held) ↔
    ∀ c, p.container = some c → c.Copies js keep (Fields.get event "context") := by
  cases hc : p.container with
  | none => exact iff_of_true ⟨_,hold_none hc⟩ nofun
  | some c =>
    simp only [hold_some hc]
    constructor
    · rintro ⟨_,filled,hf,rfl⟩ _ ⟨⟩
      exact Container.fill_iff_copies.mp ⟨filled,hf⟩
    · intro h
      obtain ⟨filled,hf⟩ := Container.fill_iff_copies.mpr (h c rfl)
      exact ⟨_,filled,hf,rfl⟩

theorem build_iff_copies : (∃ x, p.build js keep event = .ok x) ↔ p.Copies js keep event := by
  constructor
  · rintro ⟨x,h⟩
    obtain ⟨held,hheld,hu,_⟩ := build_eq_ok.mp h
    exact ⟨hold_iff_copies.mp ⟨held,hheld⟩,hu⟩
  · rintro ⟨hc,hu⟩
    obtain ⟨held,hheld⟩ := hold_iff_copies.mpr hc
    exact ⟨_,build_eq_ok.mpr ⟨held,hheld,hu,rfl⟩⟩

theorem property_converts {context : Fields} (hd : DistinctNames context) {e : String × Json}
    (he : e ∈ context) :
    property (some (converts keep (.obj context))) (renames keep e.1) = some (converts keep e.2) ↔
      keep = true ∨ renames keep e.1 ≠ "__proto__" := by
  cases keep with
  | true => exact iff_of_true (hd.get he) (.inl rfl)
  | false =>
    have hsnake : property (some (converts false (.obj context))) (renames false e.1) =
        Fields.get (merge [] (Transfer.writes false ⟨some (.obj context),[]⟩)) (renames false e.1) := by
      have hwrites : Transfer.writes false ⟨some (.obj context),[]⟩ =
          context.map (fun e => (idToSnakeCaseFast e.1,toSnakeCase e.2)) := by
        simp [Transfer.writes,entriesOf,renames,converts]
      rw [hwrites,← toSnakeFields_eq]
      rfl
    rw [hsnake]
    by_cases hp : renames false e.1 = "__proto__"
    · rw [hp,get_merge_proto]
      exact iff_of_false (by rintro ⟨⟩) (by simp)
    · rw [get_merge hp,Transfer.latest_writes (t := ⟨some (.obj context),[]⟩) hd he List.not_mem_nil]
      exact iff_of_true rfl (.inr hp)

section

variable {fields : Fields} (hb : p.build js keep event = .ok (.obj fields)) (hd : Distinct event)

include hb

theorem build_proto : Fields.get fields "__proto__" = none := by
  obtain ⟨held,hheld,-,hf⟩ := build_eq_ok.mp hb
  rw [Json.obj.inj hf,get_merge_proto,get_merge_proto]
  cases hc : p.container with
  | none =>
    rw [hold_none hc] at hheld
    cases hheld
    rfl
  | some c =>
    obtain ⟨filled,-,rfl⟩ := (hold_some hc).mp hheld
    rfl

include hd

theorem build_own {e : String × Json} (he : e ∈ event) (ho : e.1 ∉ p.omitted) :
    Fields.get fields (renames keep e.1) = some (converts keep e.2) ↔ renames keep e.1 ≠ "__proto__" := by
  by_cases hp : renames keep e.1 = "__proto__"
  · rw [hp,build_proto hb]
    exact iff_of_false nofun (not_not_intro rfl)
  · obtain ⟨held,-,-,hf⟩ := build_eq_ok.mp hb
    have hlatest : Entries.latest (renames keep e.1) ((p.own event).writes keep) = some (converts keep e.2) :=
      Transfer.latest_writes (t := p.own event) hd.fields he ho
    rw [Json.obj.inj hf,get_merge hp,hlatest]
    exact iff_of_true rfl hp

theorem build_context {context : Fields} (hc : Fields.get event "context" = some (.obj context))
    {e : String × Json} (he : e ∈ context) :
    property (Fields.get fields "context") (renames keep e.1) = some (converts keep e.2) ↔
      p.Stays js keep e := by
  have hmem : ("context",.obj context) ∈ event := Entries.mem_of_find hc
  have hname : renames keep "context" = "context" := by cases keep <;> decide
  obtain ⟨held,hheld,-,hf⟩ := build_eq_ok.mp hb
  rw [Json.obj.inj hf,get_merge (by decide)]
  have homits := p.omits
  unfold Stays
  cases hcont : p.container with
  | none =>
    rw [hcont] at homits
    have hlatest : Entries.latest "context" ((p.own event).writes keep) =
        some (converts keep (.obj context)) := by
      have h := @Transfer.latest_writes keep (p.own event) hd.fields _ hmem
        (fun h => nomatch homits.mp h)
      rwa [hname] at h
    rw [hlatest,Option.some_or]
    exact property_converts (hd.context context hc) he
  | some c =>
    rw [hcont] at homits
    obtain ⟨filled,hfill,rfl⟩ := (hold_some hcont).mp hheld
    have hlatest : Entries.latest "context" ((p.own event).writes keep) = none := by
      have h := @Transfer.latest_omitted keep (p.own event) hd.fields _ hmem (homits.mpr rfl)
      rwa [hname] at h
    rw [hlatest,Option.none_or,get_merge (by decide)]
    dsimp only
    cases Entries.latest "context" (p.chosen keep) with
    | some replacement => exact Iff.rfl
    | none =>
      have hcopy : c.copy (Fields.get event "context") = ⟨some (.obj context),c.omitted⟩ := by
        rw [Container.copy,hc]
      have hnames := hd.context context hc
      dsimp only
      split
      case isTrue hm =>
        obtain ⟨inner,rfl,hinner⟩ := Container.fill_omitted hfill
        refine hinner _ _ ?_
        rw [hcopy]
        exact Transfer.latest_omitted (t := ⟨some (.obj context),c.omitted⟩) hnames he hm
      case isFalse hm =>
        obtain ⟨inner,rfl,hinner⟩ := Container.fill_entry hfill
        refine hinner _ _ fun _ => ?_
        rw [hcopy]
        exact Transfer.latest_writes (t := ⟨some (.obj context),c.omitted⟩) hnames he hm

end

end Plan

section

variable (js : Engine) (event : Fields)

def isTyped (singleTable : Bool) : Bool := js.truthy (Fields.get event TableNameParameter) || singleTable

end

section

variable {js : Engine} {event : Fields} {keep singleTable : Bool} {p : Plan} {fields : Fields}

structure Retyped (event : Fields) (typed : Bool) (fields retyped : Fields) : Prop where
  distinct : (fields.map Prod.fst).Nodup → (retyped.map Prod.fst).Nodup
  type : typed = true → Fields.get retyped "type" = Fields.get event "type"
  others : ∀ name, (typed = true → name ≠ "type") → Fields.get retyped name = Fields.get fields name

theorem preserves_iff (hb : p.build js keep event = .ok (.obj fields)) (hd : Distinct event) {typed : Bool}
    {retyped : Fields} (ht : Retyped event typed fields retyped) :
    Preserves keep event p.omitted p.moved (.obj retyped) ↔ p.Keeps js keep event typed := by
  have hown : ∀ e ∈ event, e.1 ∉ p.omitted →
      (Fields.get retyped (renames keep e.1) = some (converts keep e.2) ↔
        renames keep e.1 ≠ "__proto__" ∧ (typed = true → renames keep e.1 = "type" →
          Fields.get event "type" = some (converts keep e.2))) := by
    intro e he ho
    by_cases htyped : typed = true ∧ renames keep e.1 = "type"
    · rw [htyped.2,ht.type htyped.1]
      exact ⟨fun h => ⟨by decide,fun _ _ => h⟩,fun h => h.2 htyped.1 rfl⟩
    · rw [not_and] at htyped
      rw [ht.others _ htyped,Plan.build_own hb hd he ho]
      exact ⟨fun h => ⟨h,fun ht hn => absurd hn (htyped ht)⟩,And.left⟩
  have hcontext : ∀ context, Fields.get event "context" = some (.obj context) → ∀ e ∈ context,
      (property (property (some (.obj retyped)) "context") (renames keep e.1) =
        some (converts keep e.2) ↔ p.Stays js keep e) := by
    intro context hc e he
    have hsame : property (some (.obj retyped)) "context" = Fields.get fields "context" :=
      ht.others _ fun _ => by decide
    rw [hsame]
    exact Plan.build_context hb hd hc he
  constructor
  · intro h
    exact ⟨fun e he ho => ((hown e he ho).mp (h.own e he ho)).1,
      fun htyped e he ho => ((hown e he ho).mp (h.own e he ho)).2 htyped,
      fun context hc e he hm => (hcontext context hc e he).mp (h.context context hc e he hm)⟩
  · intro h
    exact ⟨fun e he ho => (hown e he ho).mpr ⟨h.named e he ho,fun htyped => h.typed htyped e he ho⟩,
      fun context hc e he hm => (hcontext context hc e he).mpr (h.context context hc e he hm)⟩

theorem Retyped.untyped : Retyped event false fields fields := ⟨id,nofun,fun _ _ => rfl⟩

theorem setType_retyped (js : Engine) (event fields : Fields) : ∃ retyped,
    setType js (.obj fields) (Fields.get event "type") = .ok (.obj retyped) ∧
      Retyped event true fields retyped := by
  cases htype : Fields.get event "type" with
  | some value =>
    refine ⟨_,rfl,Entries.nodup_put,fun _ => ?_,fun name hn => ?_⟩
    · rw [get_assign (by decide),if_pos rfl,htype]
    · by_cases hp : name = "__proto__"
      · rw [hp,get_assign_proto]
      · rw [get_assign hp,if_neg (Ne.symm (hn rfl))]
  | none =>
    refine ⟨_,rfl,Entries.nodup_drop _,fun _ => ?_,fun name hn => ?_⟩
    · rw [htype]
      exact (Entries.find_drop _ _ _).trans (if_pos rfl)
    · exact (Entries.find_drop _ _ _).trans (if_neg (Ne.symm (hn rfl)))

def basePlan (event : Fields) : Plan := {trackTablePlan event with users := []}

theorem baseTrackFlat_eq : baseTrackFlat js keep event = (basePlan event).build js keep event := by
  simp [baseTrackFlat,basePlan,trackTablePlan,Plan.build,Plan.hold,Plan.describe]

theorem layoutPlan_track (h : isTrack event = true) : layoutPlan js event false = trackTablePlan event := by
  unfold isTrack at h
  split at h
  case h_1 htype => simp [layoutPlan,htype]
  case h_2 => cases h

theorem basePlan_keeps {typed : Bool} (h : (trackTablePlan event).Keeps js keep event typed) :
    (basePlan event).Keeps js keep event typed :=
  ⟨h.named,h.typed,h.context⟩

theorem baseTrack_ok (js : Engine) (event : Fields) (keep singleTable : Bool) :
    ∃ base, baseTrack js singleTable keep event = .ok base ∧
    (isTrack event = true → singleTable = false → (basePlan event).build js keep event = .ok base) := by
  have hbuild : ∃ base, (basePlan event).build js keep event = .ok base :=
    Plan.build_iff_copies.mpr ⟨nofun,nofun⟩
  obtain ⟨base,hbase⟩ := hbuild
  unfold baseTrack
  split
  · exact ⟨base,baseTrackFlat_eq.trans hbase,fun _ _ => hbase⟩
  case isFalse hc => exact ⟨_,rfl,fun ht hs => absurd (by rw [ht,hs]; rfl) hc⟩

inductive Emits (js : Engine) (event : Fields) (keep singleTable : Bool) (fields : Fields) :
    List MappedEvent → Prop
  | typed {retyped : Fields} {table : Json} : isTyped js event singleTable = true →
      Retyped event true fields retyped → Emits js event keep singleTable fields [⟨.obj retyped,table⟩]
  | plain {table : Json} : isTyped js event singleTable = false →
      Emits js event keep singleTable fields [⟨.obj fields,table⟩]
  | track {base table name : Json} : isTyped js event singleTable = false → isTrack event = true →
      (basePlan event).build js keep event = .ok base →
      Emits js event keep singleTable fields [⟨base,table⟩,⟨.obj fields,name⟩]

theorem segmentLayout_emits
    (hb : (layoutPlan js event singleTable).build js keep event = .ok (.obj fields)) :
    ∃ rows, segmentLayout js event singleTable keep = .ok rows ∧
    Emits js event keep singleTable fields rows := by
  obtain ⟨base,hbase,htrack⟩ := baseTrack_ok js event keep singleTable
  obtain ⟨retyped,hset,hretyped⟩ := setType_retyped js event fields
  have hrow : transformed js singleTable keep event = .ok (.obj fields) :=
    (transformed_eq js keep event _).trans hb
  unfold segmentLayout
  rw [hbase,ok_bind,hrow,ok_bind]
  dsimp only
  split
  case isTrue ht =>
    rw [hset,ok_bind]
    exact ⟨_,rfl,.typed (by rw [isTyped,ht]; rfl) hretyped⟩
  case isFalse ht =>
    split
    case isTrue hs =>
      rw [hset,ok_bind]
      exact ⟨_,rfl,.typed (by rw [isTyped,hs,Bool.or_true]) hretyped⟩
    case isFalse hs =>
      have htyped : isTyped js event singleTable = false := by simp [isTyped,ht,hs]
      split
      case isTrue hn =>
        rw [Bool.and_eq_true] at hn
        exact ⟨_,rfl,.track htyped hn.1 (htrack hn.1 (Bool.eq_false_iff.mpr hs))⟩
      case isFalse => exact ⟨_,rfl,.plain htyped⟩

theorem segmentLayout_build {rows : List MappedEvent}
    (h : segmentLayout js event singleTable keep = .ok rows) :
    ∃ fields, (layoutPlan js event singleTable).build js keep event = .ok (.obj fields) := by
  obtain ⟨_,-,h⟩ := bind_eq_ok.mp h
  obtain ⟨row,hrow,-⟩ := bind_eq_ok.mp h
  rw [transformed_eq] at hrow
  obtain ⟨held,-,-,rfl⟩ := Plan.build_eq_ok.mp hrow
  exact ⟨_,hrow⟩

theorem Emits.preserves_iff (hb : (layoutPlan js event singleTable).build js keep event = .ok (.obj fields))
    (hd : Distinct event) {rows : List MappedEvent} (h : Emits js event keep singleTable fields rows) :
    (∀ row ∈ rows, Preserves keep event (layoutPlan js event singleTable).omitted
      (layoutPlan js event singleTable).moved row.event) ↔
    (layoutPlan js event singleTable).Keeps js keep event (isTyped js event singleTable) := by
  cases h with
  | typed htyped hretyped =>
    rw [htyped,← Destination.preserves_iff hb hd hretyped]
    simp
  | plain htyped =>
    rw [htyped,← Destination.preserves_iff hb hd .untyped]
    simp
  | track htyped htrack hbase =>
    have hmulti : singleTable = false := by
      rw [isTyped,Bool.or_eq_false_iff] at htyped
      exact htyped.2
    subst hmulti
    rw [htyped,← Destination.preserves_iff hb hd .untyped]
    simp only [List.forall_mem_cons]
    refine ⟨fun h => h.2.1,fun h => ⟨?_,h,nofun⟩⟩
    have hkeeps := (Destination.preserves_iff hb hd .untyped).mp h
    rw [layoutPlan_track htrack] at hkeeps ⊢
    obtain ⟨held,-,-,rfl⟩ := Plan.build_eq_ok.mp hbase
    exact (Destination.preserves_iff hbase hd .untyped).mpr (basePlan_keeps hkeeps)

theorem own_fields_preserved_iff (js : Engine) (event : Fields) (singleTable keepOriginalNames : Bool)
    (hd : Distinct event) :
    ((∃ rows, segmentLayout js event singleTable keepOriginalNames = .ok rows) ↔
      (layoutPlan js event singleTable).Copies js keepOriginalNames event) ∧
    ∀ rows, segmentLayout js event singleTable keepOriginalNames = .ok rows →
      ((∀ row ∈ rows, Preserves keepOriginalNames event (layoutPlan js event singleTable).omitted
        (layoutPlan js event singleTable).moved row.event) ↔
      (layoutPlan js event singleTable).Keeps js keepOriginalNames event (isTyped js event singleTable)) := by
  refine ⟨?_,fun rows h => ?_⟩
  · rw [← Plan.build_iff_copies]
    constructor
    · rintro ⟨rows,h⟩
      obtain ⟨fields,hb⟩ := segmentLayout_build h
      exact ⟨_,hb⟩
    · rintro ⟨row,hb⟩
      obtain ⟨held,-,-,rfl⟩ := Plan.build_eq_ok.mp hb
      obtain ⟨rows,hrows,-⟩ := segmentLayout_emits hb
      exact ⟨rows,hrows⟩
  · obtain ⟨fields,hb⟩ := segmentLayout_build h
    obtain ⟨rows',hrows,hemits⟩ := segmentLayout_emits hb
    cases h.symm.trans hrows
    exact hemits.preserves_iff hb hd

def identified (traits : Fields) : Fields :=
  [("type",.str "identify"),("userId",.str "u1"),("context",.obj [("ip",.str "10.0.0.1")]),
    ("traits",.obj traits)]

theorem identified_distinct (traits : Fields) : Distinct (identified traits) where
  fields := by
    have hnames : (["type","userId","context","traits"].map idToSnakeCaseFast).Nodup := by decide +kernel
    exact hnames
  context := by
    rintro _ ⟨⟩
    exact List.nodup_singleton _

theorem own_fields_preserved_identified : ∃ row,
    segmentLayout sampleEngine (identified [("plan",.str "pro")]) false false = .ok [row] ∧
    Preserves false (identified [("plan",.str "pro")])
      (layoutPlan sampleEngine (identified [("plan",.str "pro")]) false).omitted
      (layoutPlan sampleEngine (identified [("plan",.str "pro")]) false).moved row.event := by
  have h := own_fields_preserved_iff sampleEngine (identified [("plan",.str "pro")]) false false
    (identified_distinct _)
  refine ⟨_,rfl,((h.2 _ rfl).mpr ⟨?_,nofun,?_⟩) _ List.mem_cons_self⟩
  · have hnames : ∀ name ∈ ["type","userId","context","traits"],
        idToSnakeCaseFast name ≠ "__proto__" := by decide +kernel
    intro e he _
    refine hnames e.1 ?_
    exact List.mem_map_of_mem he
  · rintro _ ⟨⟩ e he _
    cases List.mem_singleton.mp he
    exact ⟨by decide +kernel,fun _ => rfl,fun _ _ => nofun⟩

def grouped (context : Fields) : Fields :=
  [("type",.str "group"),("groupId",.str "g"),("context",.obj context),("traits",.obj [])]

def Loses (event : Fields) (keepOriginalNames : Bool) (context : Option Json) : Prop :=
  ∃ row, segmentLayout sampleEngine event false keepOriginalNames = .ok [row] ∧
    property (some row.event) "context" = context ∧
    ¬ Preserves keepOriginalNames event (layoutPlan sampleEngine event false).omitted
      (layoutPlan sampleEngine event false).moved row.event

theorem context_replaced :
    (Distinct (identified [("context",.str "vip")]) ∧ ∀ keepOriginalNames,
      Loses (identified [("context",.str "vip")]) keepOriginalNames (some (.str "vip"))) ∧
    (Distinct (grouped [("traits",.obj [("plan",.str "pro")])]) ∧ ∀ keepOriginalNames,
      Loses (grouped [("traits",.obj [("plan",.str "pro")])]) keepOriginalNames (some (.obj []))) := by
  have hnames : (["type","groupId","context","traits"].map idToSnakeCaseFast).Nodup := by decide +kernel
  have hcontext : ∀ context, Fields.get (grouped [("traits",.obj [("plan",.str "pro")])]) "context" =
      some (.obj context) → DistinctNames context := by
    rintro _ ⟨⟩
    exact List.nodup_singleton _
  have hentry : ∀ entry : String × Json, entry ∈ [entry] := fun _ => List.mem_cons_self
  refine ⟨⟨identified_distinct _,fun keepOriginalNames => ?_⟩,⟨hnames,hcontext⟩,fun keepOriginalNames => ?_⟩
  · cases keepOriginalNames with
    | true => exact ⟨_,rfl,rfl,fun h => nomatch h.context _ rfl _ (hentry _) (by decide)⟩
    | false => exact ⟨_,rfl,rfl,fun h => nomatch h.context _ rfl _ (hentry _) (by decide)⟩
  · cases keepOriginalNames with
    | true => exact ⟨_,rfl,rfl,fun h => nomatch h.context _ rfl _ (hentry _) (by decide)⟩
    | false => exact ⟨_,rfl,rfl,fun h => nomatch h.context _ rfl _ (hentry _) (by decide)⟩

end

end Jitsu.Destination
