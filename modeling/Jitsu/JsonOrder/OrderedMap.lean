import Jitsu.Lib.LinkedList
import Jitsu.Lib.OrderedMap

namespace Jitsu.JsonOrder

open Lib

variable {K V : Type} [DecidableEq K]

structure OrderedMap (K V : Type) where
  kv : List (K × ℕ)
  ll : LinkedList (K × V)

inductive Op (K V : Type) where
  | set (key : K) (value : V)
  | setIfAbsent (key : K) (value : V)
  | merge (key : K) (value : V) (f : V → V → V)
  | getOrCreate (key : K) (value : V)
  | delete (key : K)
  | deleteElement (el : ℕ)
  | rename (key newkey : K)
  | copy
  | toMap

inductive Reply (K V M : Type) where
  | done
  | flag (value : Bool)
  | value (value : V)
  | copied (map : M)
  | entries (entries : List (K × V))
  | stuck

namespace OrderedMap

def new : OrderedMap K V := ⟨[],.empty⟩

def pushBack (m : OrderedMap K V) (key : K) (value : V) : OrderedMap K V :=
  ⟨Entries.put key m.ll.cells.length m.kv,m.ll.pushBack (key,value)⟩

def get (m : OrderedMap K V) (key : K) : Option V :=
  (Entries.find key m.kv).bind fun a => m.ll.cells[a]?.map fun e => e.item.2

def set (m : OrderedMap K V) (key : K) (value : V) : OrderedMap K V × Bool :=
  match Entries.find key m.kv with
  | some a => ({m with ll := m.ll.edit a fun e => (e.1,value)},false)
  | none => (m.pushBack key value,true)

def len (m : OrderedMap K V) : ℕ := m.kv.length

def toArray (m : OrderedMap K V) : Option (List (K × V)) := m.ll.walk

def copyOf (es : List (K × V)) : OrderedMap K V := es.foldl (fun m e => (m.set e.1 e.2).1) new

def apply (zero : V) (m : OrderedMap K V) : Op K V → OrderedMap K V × Reply K V (OrderedMap K V)
  | .set key value => ((m.set key value).1,.flag (m.set key value).2)
  | .setIfAbsent key value =>
    match Entries.find key m.kv with
    | some _ => (m,.flag false)
    | none => (m.pushBack key value,.flag true)
  | .merge key value f =>
    match Entries.find key m.kv with
    | some a => ({m with ll := m.ll.edit a fun e => (e.1,f e.2 value)},.done)
    | none => (m.pushBack key value,.done)
  | .getOrCreate key _ =>
    match m.get key with
    | some value => (m,.value value)
    | none => (m.pushBack key zero,.value zero)
  | .delete key =>
    match Entries.find key m.kv with
    | some a => (⟨Entries.drop key m.kv,m.ll.remove a⟩,.flag true)
    | none => (m,.flag false)
  | .deleteElement a =>
    match m.ll.cells[a]? with
    | some e => (⟨Entries.drop e.item.1 m.kv,m.ll.remove a⟩,.done)
    | none => (m,.stuck)
  | .rename key newkey =>
    match Entries.find key m.kv with
    | some a => (⟨Entries.drop key (Entries.put newkey a m.kv),m.ll.edit a fun e => (newkey,e.2)⟩,.done)
    | none => (m,.done)
  | .copy => (m,m.toArray.elim .stuck fun es => .copied (copyOf es))
  | .toMap => (m,if m.kv = [] then .entries [] else .stuck)

def run (zero : V) (m : OrderedMap K V) : List (Op K V) → OrderedMap K V × List (Reply K V (OrderedMap K V))
  | [] => (m,[])
  | op :: ops =>
    let rest := run zero (m.apply zero op).1 ops
    (rest.1,(m.apply zero op).2 :: rest.2)

end OrderedMap

structure AssocList (K V : Type) where
  entries : List (ℕ × K × V)
  issued : ℕ

namespace AssocList

def empty : AssocList K V := ⟨[],0⟩

def contents (s : AssocList K V) : List (K × V) := s.entries.map Prod.snd

def keys (s : AssocList K V) : List K := s.entries.map fun e => e.2.1

def append (s : AssocList K V) (key : K) (value : V) : AssocList K V :=
  ⟨s.entries ++ [(s.issued,key,value)],s.issued + 1⟩

def update (s : AssocList K V) (key : K) (f : K × V → K × V) : AssocList K V :=
  {s with entries := s.entries.map fun e => if e.2.1 = key then (e.1,f e.2) else e}

def keep (s : AssocList K V) (p : ℕ × K × V → Prop) [DecidablePred p] : AssocList K V :=
  {s with entries := s.entries.filter p}

def apply (s : AssocList K V) : Op K V → AssocList K V × Reply K V (List (K × V))
  | .set key value =>
    if key ∈ s.keys then (s.update key fun e => (e.1,value),.flag false) else (s.append key value,.flag true)
  | .setIfAbsent key value => if key ∈ s.keys then (s,.flag false) else (s.append key value,.flag true)
  | .merge key value f =>
    if key ∈ s.keys then (s.update key fun e => (e.1,f e.2 value),.done) else (s.append key value,.done)
  | .getOrCreate key value =>
    match Entries.find key s.contents with
    | some existing => (s,.value existing)
    | none => (s.append key value,.value value)
  | .delete key => (s.keep fun e => e.2.1 ≠ key,.flag (key ∈ s.keys))
  | .deleteElement a => (s.keep fun e => e.1 ≠ a,.done)
  | .rename key newkey =>
    if key ∈ s.keys then
      ((s.keep fun e => e.2.1 = key ∨ e.2.1 ≠ newkey).update key fun e => (newkey,e.2),.done)
    else (s,.done)
  | .copy => (s,.copied s.contents)
  | .toMap => (s,.entries s.contents)

def run (s : AssocList K V) : List (Op K V) → AssocList K V × List (Reply K V (List (K × V)))
  | [] => (s,[])
  | op :: ops =>
    let rest := run (s.apply op).1 ops
    (rest.1,(s.apply op).2 :: rest.2)

end AssocList

structure Represents (m : OrderedMap K V) (s : AssocList K V) : Prop where
  issued : s.issued = m.ll.cells.length
  linked : m.ll.Linked s.entries
  keys : s.keys.Nodup
  indexed : (m.kv.map Prod.fst).Nodup
  kv : ∀ {key a}, (key,a) ∈ m.kv ↔ ∃ value, (a,key,value) ∈ s.entries

def Reply.Matches : Reply K V (OrderedMap K V) → Reply K V (List (K × V)) → Prop
  | .copied m,.copied es => ∃ s, Represents m s ∧ s.contents = es
  | .done,.done => True
  | .flag b,.flag c => b = c
  | .value v,.value w => v = w
  | .entries es,.entries fs => es = fs
  | _,_ => False

def Op.Safe (zero : V) (m : OrderedMap K V) : Op K V → Prop
  | .getOrCreate key value => key ∈ m.kv.map Prod.fst ∨ value = zero
  | .deleteElement a => a ∈ m.kv.map Prod.snd
  | .rename key newkey => key ∉ m.kv.map Prod.fst ∨ newkey ∉ m.kv.map Prod.fst
  | .toMap => m.kv = []
  | _ => True

def SafeRun (zero : V) : OrderedMap K V → List (Op K V) → Prop
  | _,[] => True
  | m,op :: ops => op.Safe zero m ∧ SafeRun zero (m.apply zero op).1 ops

theorem filter_ne_eq {α β : Type} [DecidableEq β] {g : α → β} {p q : List α} {e : α}
    (h : ((p ++ e :: q).map g).Nodup) : (p ++ e :: q).filter (fun x => g x ≠ g e) = p ++ q := by
  rw [List.map_append,List.map_cons,List.nodup_append,List.nodup_cons] at h
  obtain ⟨-,⟨hq,-⟩,hapart⟩ := h
  have hp : ∀ x ∈ p, g x ≠ g e := fun x hx => hapart _ (List.mem_map_of_mem hx) _ List.mem_cons_self
  have hq : ∀ x ∈ q, g x ≠ g e := fun x hx heq => hq (heq ▸ List.mem_map_of_mem hx)
  rw [List.filter_append,List.filter_cons_of_neg (by simp),List.filter_eq_self.mpr (by simpa using hp),
    List.filter_eq_self.mpr (by simpa using hq)]

namespace Represents

variable {m : OrderedMap K V} {s : AssocList K V} {key : K} {value : V} {a : ℕ}

omit [DecidableEq K] in
theorem new : Represents (OrderedMap.new : OrderedMap K V) .empty :=
  ⟨rfl,.empty,List.nodup_nil,List.nodup_nil,by simp [OrderedMap.new,AssocList.empty]⟩

omit [DecidableEq K] in
theorem mem_keys (h : Represents m s) : key ∈ s.keys ↔ key ∈ m.kv.map Prod.fst := by
  constructor
  · intro hk
    obtain ⟨⟨a,key,value⟩,he,rfl⟩ := List.mem_map.mp hk
    exact List.mem_map_of_mem (f := Prod.fst) (h.kv.mpr ⟨value,he⟩)
  · intro hk
    obtain ⟨⟨key,a⟩,he,rfl⟩ := List.mem_map.mp hk
    obtain ⟨value,hv⟩ := h.kv.mp he
    exact List.mem_map_of_mem (f := fun e : ℕ × K × V => e.2.1) hv

theorem lookup (h : Represents m s) (key : K) : Entries.find key m.kv = none ∧ key ∉ s.keys ∨
    ∃ a value, Entries.find key m.kv = some a ∧ key ∈ s.keys ∧ (a,key,value) ∈ s.entries := by
  cases hf : Entries.find key m.kv with
  | none => exact .inl ⟨rfl,fun hk => Entries.find_eq_none.mp hf (h.mem_keys.mp hk)⟩
  | some a =>
    obtain ⟨value,hv⟩ := h.kv.mp (Entries.mem_of_find hf)
    exact .inr ⟨a,value,rfl,List.mem_map_of_mem (f := fun e : ℕ × K × V => e.2.1) hv,hv⟩

omit [DecidableEq K] in
theorem fst_contents : s.contents.map Prod.fst = s.keys := List.map_map

variable (h : Represents m s)

include h

omit [DecidableEq K] in
theorem cell (hv : (a,key,value) ∈ s.entries) :
    ∃ e, m.ll.cells[a]? = some e ∧ e.item = (key,value) := by
  obtain ⟨p,q,hs⟩ := List.append_of_mem hv
  exact ⟨_,h.linked.cell hs,rfl⟩

omit [DecidableEq K] in
theorem same_entry {e : ℕ × K × V} (hv : (a,key,value) ∈ s.entries) (he : e ∈ s.entries) :
    e.2.1 = key ↔ e.1 = a := by
  constructor
  · intro heq
    exact congrArg Prod.fst (List.inj_on_of_nodup_map h.keys he hv heq)
  · intro heq
    exact congrArg (fun e => e.2.1) (List.inj_on_of_nodup_map h.linked.nodup he hv heq)

theorem pushBack (hk : key ∉ s.keys) (value : V) :
    Represents (m.pushBack key value) (s.append key value) := by
  have hput : Entries.put key m.ll.cells.length m.kv = m.kv ++ [(key,m.ll.cells.length)] :=
    Entries.put_of_not_mem (fun hm => hk (h.mem_keys.mpr hm)) _
  refine ⟨?_,?_,?_,Entries.nodup_put h.indexed,?_⟩
  · simp [OrderedMap.pushBack,AssocList.append,h.issued]
  · unfold OrderedMap.pushBack AssocList.append
    rw [h.issued]
    exact h.linked.pushBack (key,value)
  · unfold AssocList.append AssocList.keys
    rw [List.map_append]
    refine List.nodup_append.mpr ⟨h.keys,by simp,?_⟩
    rintro k hm _ hs rfl
    have heq : k = key := List.mem_singleton.mp hs
    exact hk (heq ▸ hm)
  · intro k a
    unfold OrderedMap.pushBack AssocList.append
    simp only [hput,List.mem_append,h.kv,List.mem_singleton,Prod.mk.injEq,h.issued,exists_or]
    tauto

section

variable (hv : (a,key,value) ∈ s.entries)

include hv

theorem edit (f : K × V → K × V) :
    (m.ll.edit a f).Linked (s.update key f).entries ∧
    (s.update key f).issued = (m.ll.edit a f).cells.length := by
  refine ⟨?_,by simp [AssocList.update,h.issued]⟩
  have hmap : (s.update key f).entries = s.entries.map fun e => if e.1 = a then (e.1,f e.2) else e := by
    refine List.map_congr_left fun e he => ?_
    simp only [h.same_entry hv he]
  rw [hmap]
  exact h.linked.edit a f

theorem setValue (f : K × V → V) :
    Represents {m with ll := m.ll.edit a fun e => (e.1,f e)} (s.update key fun e => (e.1,f e)) := by
  obtain ⟨hlinked,hissued⟩ := h.edit hv fun e => (e.1,f e)
  refine ⟨hissued,hlinked,?_,h.indexed,?_⟩
  · have hkeys : (s.update key fun e => (e.1,f e)).keys = s.keys := by
      unfold AssocList.keys AssocList.update
      rw [List.map_map]
      refine List.map_congr_left fun e _ => ?_
      simp only [Function.comp_apply]
      split <;> rfl
    exact hkeys ▸ h.keys
  · intro k b
    rw [h.kv]
    constructor
    · rintro ⟨v,hb⟩
      by_cases hk : k = key
      · exact ⟨_,List.mem_map.mpr ⟨_,hb,if_pos hk⟩⟩
      · exact ⟨_,List.mem_map.mpr ⟨_,hb,if_neg hk⟩⟩
    · rintro ⟨v,hb⟩
      obtain ⟨⟨c,j,w⟩,he,heq⟩ := List.mem_map.mp hb
      split at heq <;> cases heq <;> exact ⟨_,he⟩

theorem remove :
    Represents ⟨Entries.drop key m.kv,m.ll.remove a⟩ (s.keep fun e => e.2.1 ≠ key) ∧
      (s.keep fun e => e.1 ≠ a) = s.keep fun e => e.2.1 ≠ key := by
  have hsame : (s.keep fun e => e.1 ≠ a) = s.keep fun e => e.2.1 ≠ key := by
    refine congrArg (AssocList.mk · s.issued) (List.filter_congr fun e he => ?_)
    simp only [ne_eq,h.same_entry hv he]
  refine ⟨⟨?_,?_,h.keys.sublist (List.filter_sublist.map _),Entries.nodup_drop key h.indexed,?_⟩,hsame⟩
  · rw [LinkedList.length_remove]
    exact h.issued
  · obtain ⟨p,q,hs⟩ := List.append_of_mem hv
    have hlinked := h.linked
    have hkeys := h.keys
    unfold AssocList.keys at hkeys
    rw [hs] at hlinked hkeys
    have hfilter : s.entries.filter (fun e => e.2.1 ≠ key) = p ++ q := hs ▸ filter_ne_eq hkeys
    unfold AssocList.keep
    rw [hfilter]
    exact hlinked.remove
  · intro k b
    unfold Entries.drop AssocList.keep
    simp only [List.mem_filter,h.kv,decide_eq_true_eq]
    exact ⟨fun ⟨⟨v,hb⟩,hne⟩ => ⟨v,hb,hne⟩,fun ⟨v,hb,hne⟩ => ⟨⟨v,hb⟩,hne⟩⟩

theorem rename {newkey : K} (hn : newkey ∉ s.keys) :
    Represents ⟨Entries.drop key (Entries.put newkey a m.kv),m.ll.edit a fun e => (newkey,e.2)⟩
      ((s.keep fun e => e.2.1 = key ∨ e.2.1 ≠ newkey).update key fun e => (newkey,e.2)) := by
  have hkeep : (s.keep fun e => e.2.1 = key ∨ e.2.1 ≠ newkey) = s := by
    refine congrArg (AssocList.mk · s.issued)
      (List.filter_eq_self.mpr fun e he => decide_eq_true (.inr fun heq => ?_))
    exact hn (heq ▸ List.mem_map_of_mem he)
  obtain ⟨hlinked,hissued⟩ := h.edit hv fun e => (newkey,e.2)
  have hne : newkey ≠ key := fun heq => hn (heq ▸ List.mem_map_of_mem hv)
  rw [hkeep]
  refine ⟨hissued,hlinked,?_,Entries.nodup_drop key (Entries.nodup_put h.indexed),?_⟩
  · have hkeys : (s.update key fun e => (newkey,e.2)).keys =
        s.keys.map fun k => if k = key then newkey else k := by
      unfold AssocList.keys AssocList.update
      rw [List.map_map,List.map_map]
      refine List.map_congr_left fun e _ => ?_
      simp only [Function.comp_apply]
      split <;> rfl
    rw [hkeys]
    refine h.keys.map_on fun k hk j hj heq => ?_
    split at heq
    · next hkey =>
      split at heq
      · next hother => exact hkey.trans hother.symm
      · exact absurd (heq ▸ hj) hn
    · split at heq
      · exact absurd (heq ▸ hk) hn
      · exact heq
  · intro k b
    rw [Entries.put_of_not_mem (fun hm => hn (h.mem_keys.mpr hm))]
    unfold Entries.drop AssocList.update
    simp only [List.mem_filter,List.mem_append,List.mem_singleton,Prod.mk.injEq,decide_eq_true_eq,
      List.mem_map,h.kv]
    constructor
    · rintro ⟨⟨v,hb⟩ | ⟨rfl,rfl⟩,hk⟩
      · exact ⟨v,_,hb,if_neg hk⟩
      · exact ⟨value,_,hv,if_pos rfl⟩
    · rintro ⟨v,e,he,heq⟩
      split at heq
      · next hkey =>
        cases heq
        exact ⟨.inr ⟨rfl,(h.same_entry hv he).mp hkey⟩,hne⟩
      · next hkey =>
        subst heq
        exact ⟨.inl ⟨v,he⟩,hkey⟩

end

theorem get_eq (key : K) : m.get key = Entries.find key s.contents := by
  unfold OrderedMap.get
  rcases h.lookup key with ⟨hf,hk⟩ | ⟨a,value,hf,-,hv⟩
  · rw [hf,Entries.find_eq_none.mpr (fst_contents ▸ hk)]
    rfl
  · obtain ⟨e,he,hitem⟩ := h.cell hv
    rw [hf,Option.bind_some,he,Option.map_some,hitem]
    exact (Lib.OrderedMap.get_of_mem ⟨s.contents,fst_contents ▸ h.keys⟩ (List.mem_map_of_mem hv)).symm

theorem set (key : K) (value : V) :
    Represents (m.set key value).1 (s.apply (.set key value)).1 ∧
      (s.apply (.set key value)).2 = .flag (m.set key value).2 := by
  unfold OrderedMap.set
  rcases h.lookup key with ⟨hf,hk⟩ | ⟨a,stored,hf,hk,hv⟩
  · simp only [AssocList.apply,hf,if_neg hk]
    exact ⟨h.pushBack hk value,trivial⟩
  · simp only [AssocList.apply,hf,if_pos hk]
    exact ⟨h.setValue hv fun _ => value,trivial⟩

theorem copied {es : List (K × V)} (hn : (s.keys ++ es.map Prod.fst).Nodup) :
    ∃ t, Represents (es.foldl (fun m e => (m.set e.1 e.2).1) m) t ∧ t.contents = s.contents ++ es := by
  induction es generalizing m s with
  | nil => exact ⟨s,h,(List.append_nil _).symm⟩
  | cons e es ih =>
    have hout : e.1 ∉ s.keys := fun hm => List.disjoint_of_nodup_append hn hm List.mem_cons_self
    obtain ⟨hset,-⟩ := h.set e.1 e.2
    simp only [AssocList.apply] at hset
    rw [if_neg hout] at hset
    obtain ⟨t,ht,hc⟩ := ih hset (by simpa [AssocList.keys,AssocList.append] using hn)
    exact ⟨t,ht,by rw [hc]; simp [AssocList.contents,AssocList.append]⟩

omit [DecidableEq K] in
theorem toArray : m.toArray = some s.contents := h.linked.walk

omit [DecidableEq K] in
theorem len : m.len = s.contents.length := by
  have hentries : (s.entries.map fun e => (e.2.1,e.1)).Nodup := by
    refine List.Nodup.of_map Prod.fst ?_
    rw [List.map_map]
    exact h.keys
  have hperm : m.kv.Perm (s.entries.map fun e => (e.2.1,e.1)) := by
    refine (List.perm_ext_iff_of_nodup (h.indexed.of_map _) hentries).mpr fun ⟨k,a⟩ => ?_
    rw [h.kv,List.mem_map]
    exact ⟨fun ⟨v,hv⟩ => ⟨_,hv,rfl⟩,fun ⟨⟨b,j,v⟩,he,heq⟩ => by cases heq; exact ⟨v,he⟩⟩
  simpa [AssocList.contents,OrderedMap.len] using hperm.length_eq

theorem apply {zero : V} {op : Op K V} (hs : op.Safe zero m) :
    Represents (m.apply zero op).1 (s.apply op).1 ∧ (m.apply zero op).2.Matches (s.apply op).2 := by
  cases op with
  | set key value =>
    obtain ⟨hset,hflag⟩ := h.set key value
    exact ⟨hset,hflag ▸ rfl⟩
  | setIfAbsent key value =>
    rcases h.lookup key with ⟨hf,hk⟩ | ⟨a,stored,hf,hk,hv⟩
    · simp only [OrderedMap.apply,AssocList.apply,hf,if_neg hk]
      exact ⟨h.pushBack hk value,rfl⟩
    · simp only [OrderedMap.apply,AssocList.apply,hf,if_pos hk]
      exact ⟨h,rfl⟩
  | merge key value f =>
    rcases h.lookup key with ⟨hf,hk⟩ | ⟨a,stored,hf,hk,hv⟩
    · simp only [OrderedMap.apply,AssocList.apply,hf,if_neg hk]
      exact ⟨h.pushBack hk value,trivial⟩
    · simp only [OrderedMap.apply,AssocList.apply,hf,if_pos hk]
      exact ⟨h.setValue hv fun e => f e.2 value,trivial⟩
  | getOrCreate key value =>
    simp only [OrderedMap.apply,AssocList.apply]
    rw [← h.get_eq key]
    cases hget : m.get key with
    | some stored => exact ⟨h,rfl⟩
    | none =>
      have hk : key ∉ s.keys := by
        rw [h.get_eq,Entries.find_eq_none] at hget
        exact fst_contents ▸ hget
      have hzero : value = zero := hs.resolve_left fun hm => hk (h.mem_keys.mpr hm)
      exact hzero ▸ ⟨h.pushBack hk value,rfl⟩
  | delete key =>
    rcases h.lookup key with ⟨hf,hk⟩ | ⟨a,stored,hf,hk,hv⟩
    · have hkeep : (s.keep fun e => e.2.1 ≠ key) = s := by
        refine congrArg (AssocList.mk · s.issued)
          (List.filter_eq_self.mpr fun e he => decide_eq_true fun heq => ?_)
        exact hk (heq ▸ List.mem_map_of_mem he)
      simp only [OrderedMap.apply,AssocList.apply,hf,hkeep]
      exact ⟨h,(decide_eq_false hk).symm⟩
    · simp only [OrderedMap.apply,AssocList.apply,hf]
      exact ⟨(h.remove hv).1,(decide_eq_true hk).symm⟩
  | deleteElement a =>
    obtain ⟨⟨key,b⟩,hmem,rfl⟩ := List.mem_map.mp hs
    obtain ⟨stored,hv⟩ := h.kv.mp hmem
    obtain ⟨e,he,hitem⟩ := h.cell hv
    simp only [OrderedMap.apply,AssocList.apply,he,hitem]
    rw [(h.remove hv).2]
    exact ⟨(h.remove hv).1,trivial⟩
  | rename key newkey =>
    rcases h.lookup key with ⟨hf,hk⟩ | ⟨a,stored,hf,hk,hv⟩
    · simp only [OrderedMap.apply,AssocList.apply,hf,if_neg hk]
      exact ⟨h,trivial⟩
    · simp only [OrderedMap.apply,AssocList.apply,hf,if_pos hk]
      have hnew : newkey ∉ s.keys := fun hm =>
        hs.elim (fun hn => hn (h.mem_keys.mp hk)) (fun hn => hn (h.mem_keys.mp hm))
      exact ⟨h.rename hv hnew,trivial⟩
  | copy =>
    simp only [OrderedMap.apply,AssocList.apply,h.toArray]
    refine ⟨h,Represents.new.copied ?_⟩
    rw [fst_contents]
    exact h.keys
  | toMap =>
    have hempty : s.contents = [] := by
      rw [← List.length_eq_zero_iff,← h.len,OrderedMap.len,List.length_eq_zero_iff]
      exact hs
    have hkv : m.kv = [] := hs
    simp only [OrderedMap.apply,AssocList.apply,hempty,hkv]
    exact ⟨h,rfl⟩

theorem run {zero : V} {ops : List (Op K V)} (hs : SafeRun zero m ops) :
    Represents (m.run zero ops).1 (s.run ops).1 ∧
      List.Forall₂ Reply.Matches (m.run zero ops).2 (s.run ops).2 := by
  induction ops generalizing m s with
  | nil => exact ⟨h,.nil⟩
  | cons op ops ih =>
    obtain ⟨hnext,hreply⟩ := h.apply hs.1
    obtain ⟨hend,hreplies⟩ := ih hnext hs.2
    exact ⟨hend,.cons hreply hreplies⟩

end Represents

theorem ordered_map_refines (zero : V) (ops : List (Op K V)) (hs : SafeRun zero .new ops) :
    Represents (OrderedMap.new.run zero ops).1 (AssocList.empty.run ops).1 ∧
    (OrderedMap.new.run zero ops).1.len = (AssocList.empty.run ops).1.contents.length ∧
    (OrderedMap.new.run zero ops).1.toArray = some (AssocList.empty.run ops).1.contents ∧
    List.Forall₂ Reply.Matches (OrderedMap.new.run zero ops).2 (AssocList.empty.run ops).2 := by
  obtain ⟨hend,hreplies⟩ := Represents.new.run hs
  exact ⟨hend,hend.len,hend.toArray,hreplies⟩

def sampleOps : List (Op String ℕ) :=
  [.toMap,.set "a" 1,.setIfAbsent "b" 2,.merge "a" 3 (fun old new => old + new),.getOrCreate "b" 9,
    .rename "a" "c",
    .deleteElement 1,.set "d" 4,.delete "x",.copy]

theorem ordered_map_refines_sample :
    (OrderedMap.new.run 0 sampleOps).1.toArray = some [("c",4),("d",4)] ∧
    List.Forall₂ Reply.Matches (OrderedMap.new.run 0 sampleOps).2 (AssocList.empty.run sampleOps).2 := by
  have hsafe : SafeRun 0 .new sampleOps := by
    simp only [SafeRun,sampleOps,Op.Safe]
    decide
  exact ⟨(ordered_map_refines 0 sampleOps hsafe).2.2.1,(ordered_map_refines 0 sampleOps hsafe).2.2.2⟩

theorem ordered_map_corrupted :
    (OrderedMap.new.run 0 [.set "a" 1,.set "b" 2,.rename "a" "b"]).1.toArray = some [("b",1),("b",2)] ∧
    (OrderedMap.new.run 0 [.set "a" 1,.rename "a" "a"]).1.toArray = some [("a",1)] ∧
    (OrderedMap.new.run 0 [.set "a" 1,.rename "a" "a"]).1.len = 0 ∧
    (OrderedMap.new.run 0 [.getOrCreate "a" 5]).1.toArray = some [("a",0)] ∧
    (OrderedMap.new.run 0 [.set "a" 1,.set "b" 2,.delete "a",.deleteElement 0]).1.toArray = some [] ∧
    (OrderedMap.new.run 0 [.set "a" 1,.set "b" 2,.delete "a",.deleteElement 0]).1.len = 1 ∧
    ((OrderedMap.new.run 0 [.set "a" 1,.toMap]).2.getLast?.map fun r => r matches .stuck) = some true := by
  decide

end Jitsu.JsonOrder
