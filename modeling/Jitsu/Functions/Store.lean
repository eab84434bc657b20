import Jitsu.Lib.Text
import Jitsu.Lib.Served

namespace Jitsu.Functions

open Served

def defaultTTL : ℤ := 60 * 60 * 24 * 31

def maxAllowedTTL : ℤ := 2147483647

inductive SetOpts where
  | absent
  | number (n : ℚ)
  | text (s : String)
  | object (ttl : SetOpts)

variable (parse : String → Option ℚ)

def getTtlSec : SetOpts → ℤ
  | .absent => min defaultTTL maxAllowedTTL
  | .number n => min ⌈n⌉ maxAllowedTTL
  | .text s =>
    if s.toLower = "inf" then min (-1) maxAllowedTTL
    else
      match parse s with
      | some n => if n = 0 then min defaultTTL maxAllowedTTL else min ⌈n⌉ maxAllowedTTL
      | none => min defaultTTL maxAllowedTTL
  | .object ttl => getTtlSec ttl

inductive Call (V : Type) where
  | get (key : String)
  | set (key : String) (obj : V) (opts : SetOpts)
  | del (key : String)
  | ttl (key : String)
  | getWithTTL (key : String)
  | getOrSet (key : String) (value : V) (opts : SetOpts)

inductive Reply (V : Type) where
  | undefined
  | value (v : V)
  | number (n : ℤ)
  | nan
  | withTTL (v : V) (ttl : ℤ)
  | record (obj : V) (expireAt : ℤ)
  | inherited
deriving DecidableEq

abbrev TTLStore (V σ : Type) := Server σ (Call V) (Reply V)

variable {V σ τ : Type} (truthy : V → Bool)

def Reply.isTruthy : Reply V → Bool
  | .undefined => false
  | .value v => truthy v
  | .number n => n ≠ 0
  | .nan => false
  | .withTTL _ _ => true
  | .record _ _ => true
  | .inherited => true

def Reply.atLeast (n : ℤ) : Reply V → Bool
  | .number m => n ≤ m
  | _ => false

def createMultiStore (newStore : TTLStore V σ) (oldStore : TTLStore V τ) : TTLStore V (σ × τ) :=
  fun now call stores =>
    let res := newStore now call stores.1
    let other := oldStore now call stores.2
    match call with
    | .get _ | .getOrSet _ _ _ | .getWithTTL _ =>
      if res.1.isTruthy truthy = true then (res.1,res.2,stores.2) else (other.1,res.2,other.2)
    | .set _ _ _ => (.undefined,res.2,stores.2)
    | .del _ => (.undefined,res.2,other.2)
    | .ttl _ => if res.1.atLeast (-1) = true then (res.1,res.2,stores.2) else (other.1,res.2,other.2)

structure Slot (V : Type) where
  obj : V
  expireAt : ℤ

structure MemoryStore (V : Type) where
  own : String → Option (Slot V)
  prototype : Option (Slot V)

inductive Found (V : Type) where
  | missing
  | slot (e : Slot V)
  | inherited

namespace MemoryStore

def empty : MemoryStore V := ⟨fun _ => none,none⟩

variable (store : MemoryStore V)

def find (key : String) : Found V :=
  if key = "__proto__" then
    match store.prototype with
    | some e => .slot e
    | none => .inherited
  else
    match store.own key with
    | some e => .slot e
    | none =>
      if key ∈ objectPrototype ∨
        (store.prototype.isSome = true ∧ (key = "obj" ∨ key = "expireAt")) then .inherited
      else .missing

def assign (key : String) (e : Slot V) : MemoryStore V :=
  if key = "__proto__" then { store with prototype := some e }
  else { store with own := Function.update store.own key (some e) }

def delete (key : String) : MemoryStore V := { store with own := Function.update store.own key none }

end MemoryStore

def slotFor (now : ℤ) (obj : V) (opts : SetOpts) : Slot V := ⟨obj,now + getTtlSec parse opts * 1000⟩

def createMemoryStore : TTLStore V (MemoryStore V) := fun now call store =>
  match call with
  | .get key =>
    match store.find key with
    | .missing => (.undefined,store)
    | .inherited => (.inherited,store)
    | .slot val =>
      if val.expireAt = 0 then (.record val.obj val.expireAt,store)
      else if val.expireAt < now then (.undefined,store.delete key)
      else (.value val.obj,store)
  | .set key obj opts => (.undefined,store.assign key (slotFor parse now obj opts))
  | .del key => (.undefined,store.delete key)
  | .ttl key =>
    match store.find key with
    | .missing => (.number (-2),store)
    | .inherited => (.nan,store)
    | .slot val =>
      if val.expireAt - now < 0 then (.number (-2),store.delete key)
      else (.number ((val.expireAt - now) / 1000),store)
  | .getWithTTL key =>
    match store.find key with
    | .missing => (.undefined,store)
    | .inherited => (.inherited,store)
    | .slot val =>
      if val.expireAt - now < 0 then (.undefined,store.delete key)
      else (.withTTL val.obj ((val.expireAt - now) / 1000),store)
  | .getOrSet key value opts =>
    match store.find key with
    | .missing => (.value value,store.assign key (slotFor parse now value opts))
    | .inherited => (.undefined,store)
    | .slot val =>
      if val.expireAt - now < 0 then (.value value,store.assign key (slotFor parse now value opts))
      else (.value val.obj,store)

structure Entry (V : Type) where
  obj : V
  expireAt : Option ℤ

namespace Entry

variable (e : Entry V) (now : ℤ)

def live : Bool :=
  match e.expireAt with
  | some t => now ≤ t
  | none => true

def ttl : ℤ :=
  match e.expireAt with
  | some t => (t - now) / 1000
  | none => -1

end Entry

def TtlMap (V : Type) := String → Option (Entry V)

namespace TtlMap

variable (m : TtlMap V) (now : ℤ)

def empty : TtlMap V := fun _ => none

def live (key : String) : Option (Entry V) := (m key).filter (Entry.live · now)

def assign (key : String) (e : Option (Entry V)) : TtlMap V := fun other => if other = key then e else m other

def put (key : String) (obj : V) (opts : SetOpts) : TtlMap V :=
  m.assign key (some ⟨obj,
    if 0 ≤ getTtlSec parse opts then some (now + getTtlSec parse opts * 1000) else none⟩)

def store : TTLStore V (TtlMap V) := fun now call m =>
  match call with
  | .get key =>
    match m.live now key with
    | some e => (.value e.obj,m)
    | none => (.undefined,m)
  | .set key obj opts => (.undefined,m.put parse now key obj opts)
  | .del key => (.undefined,m.assign key none)
  | .ttl key =>
    match m.live now key with
    | some e => (.number (e.ttl now),m)
    | none => (.number (-2),m)
  | .getWithTTL key =>
    match m.live now key with
    | some e => (.withTTL e.obj (e.ttl now),m)
    | none => (.undefined,m)
  | .getOrSet key value opts =>
    match m.live now key with
    | some e => (.value e.obj,m)
    | none => (.value value,m.put parse now key value opts)

end TtlMap

section Multi

variable {now : ℤ} {key : String}

def Kept (now : ℤ) (key : String) (stores : TtlMap V × TtlMap V) : Prop :=
  (stores.1.live now key).all (truthy ·.obj) = true

def Shadowed (now : ℤ) (key : String) (stores : TtlMap V × TtlMap V) : Prop :=
  (stores.1.live now key).isNone = true → (stores.2.live now key).isNone = true

def SafeForBoth (now : ℤ) (call : Call V) (stores : TtlMap V × TtlMap V) : Prop :=
  match call with
  | .get key => Kept truthy now key stores ∧ ((stores.1 key).isSome = true → Shadowed now key stores)
  | .ttl key | .getWithTTL key => (stores.1 key).isSome = true → Shadowed now key stores
  | .set _ _ _ | .del _ => True
  | .getOrSet key value _ => truthy value = true ∧ Kept truthy now key stores ∧ Shadowed now key stores

instance (stores : TtlMap V × TtlMap V) : Decidable (Kept truthy now key stores) :=
  inferInstanceAs (Decidable (_ = true))

instance (stores : TtlMap V × TtlMap V) : Decidable (Shadowed now key stores) :=
  inferInstanceAs (Decidable (_ = true → _ = true))

instance (now : ℤ) (call : Call V) (stores : TtlMap V × TtlMap V) :
    Decidable (SafeForBoth truthy now call stores) :=
  match call with
  | .get key => inferInstanceAs (Decidable (Kept truthy now key stores ∧ (_ = true → Shadowed now key stores)))
  | .ttl key | .getWithTTL key => inferInstanceAs (Decidable (_ = true → Shadowed now key stores))
  | .set _ _ _ | .del _ => inferInstanceAs (Decidable True)
  | .getOrSet key _ _ =>
    inferInstanceAs (Decidable (_ = true ∧ Kept truthy now key stores ∧ Shadowed now key stores))

def Layered (stores : TtlMap V × TtlMap V) (m : TtlMap V) : Prop :=
  ∀ key, m key = (stores.1 key).or (stores.2 key)

variable {stores : TtlMap V × TtlMap V} {m : TtlMap V} {e : Entry V}

section

variable (h : Layered stores m)

include h

theorem Layered.live_of_new (he : stores.1.live now key = some e) :
    m.live now key = some e := by
  obtain ⟨hkey,hlive⟩ := Option.filter_eq_some_iff.mp he
  rw [TtlMap.live,h,hkey,Option.some_or]
  exact Option.filter_eq_some_iff.mpr ⟨rfl,hlive⟩

theorem Layered.live_of_old (hnew : stores.1.live now key = none)
    (hold : (stores.1 key).isSome = true → Shadowed now key stores) :
    m.live now key = stores.2.live now key := by
  cases hkey : stores.1 key with
  | none => rw [TtlMap.live,h,hkey,Option.none_or,TtlMap.live]
  | some e =>
    have hgone := hold (by simp [hkey]) (by simp [hnew])
    rw [Option.isNone_iff_eq_none.mp hgone,TtlMap.live,h,hkey,Option.some_or,← hkey]
    exact hnew

theorem Layered.put (value : V) (opts : SetOpts) :
    Layered (stores.1.put parse now key value opts,stores.2) (m.put parse now key value opts) := by
  intro other
  by_cases hother : other = key
  · simp [TtlMap.put,TtlMap.assign,hother]
  · simpa [TtlMap.put,TtlMap.assign,hother] using h other

theorem Layered.del (key : String) :
    Layered (stores.1.assign key none,stores.2.assign key none) (m.assign key none) := by
  intro other
  by_cases hother : other = key
  · simp [TtlMap.assign,hother]
  · simpa [TtlMap.assign,hother] using h other

end

theorem Kept.live_truthy {truthy : V → Bool} (h : Kept truthy now key stores)
    (he : stores.1.live now key = some e) : truthy e.obj = true := by
  simpa [Kept,he] using h

theorem live_ttl (he : m.live now key = some e) : -1 ≤ e.ttl now := by
  have hlive : e.live now = true := (Option.filter_eq_some_iff.mp he).2
  unfold Entry.live at hlive
  unfold Entry.ttl
  cases hexpire : e.expireAt with
  | none => exact le_rfl
  | some t =>
    rw [hexpire] at hlive
    have hnow : now ≤ t := of_decide_eq_true hlive
    change -1 ≤ (t - now) / 1000
    omega

theorem Layered.lookup (h : Layered stores m)
    (hshadowed : (stores.1 key).isSome = true → Shadowed now key stores) :
    (∃ e, stores.1.live now key = some e ∧ m.live now key = some e) ∨
      (stores.1.live now key = none ∧ m.live now key = stores.2.live now key) := by
  cases hnew : stores.1.live now key with
  | some e => exact .inl ⟨e,rfl,h.live_of_new hnew⟩
  | none => exact .inr ⟨rfl,h.live_of_old hnew hshadowed⟩

theorem multi_getOrSet (h : Layered stores m) {value : V} (opts : SetOpts) (hvalue : truthy value = true)
    (hkept : Kept truthy now key stores) (hshadowed : Shadowed now key stores) :
    let multi := createMultiStore truthy (TtlMap.store parse) (TtlMap.store parse) now
      (.getOrSet key value opts) stores
    let single := TtlMap.store parse now (.getOrSet key value opts) m
    multi.1 = single.1 ∧ Layered multi.2 single.2 := by
  cases hnew : stores.1.live now key with
  | some e =>
    simpa [createMultiStore,TtlMap.store,hnew,h.live_of_new hnew,Reply.isTruthy,hkept.live_truthy hnew] using h
  | none =>
    have hold := h.live_of_old hnew (fun _ => hshadowed)
    rw [Option.isNone_iff_eq_none.mp (hshadowed (by simp [hnew]))] at hold
    simpa [createMultiStore,TtlMap.store,hnew,hold,Reply.isTruthy,hvalue] using h.put parse value opts

theorem multi_simulation :
    Simulation (createMultiStore truthy (TtlMap.store parse) (TtlMap.store parse)) (TtlMap.store parse)
      (SafeForBoth truthy) (fun _ => Layered (V := V)) where
  later _ h := h
  step := by
    intro now call stores m h hsafe
    cases call with
    | get key =>
      rcases h.lookup hsafe.2 with ⟨e,hnew,hm⟩ | ⟨hnew,hm⟩
      · simp [createMultiStore,TtlMap.store,hnew,hm,Reply.isTruthy,hsafe.1.live_truthy hnew,h]
      · cases hlive : stores.2.live now key <;>
          simp [createMultiStore,TtlMap.store,hnew,hm,hlive,Reply.isTruthy,h]
    | set key obj opts => exact ⟨rfl,h.put parse obj opts⟩
    | del key => exact ⟨rfl,h.del key⟩
    | ttl key =>
      rcases h.lookup hsafe with ⟨e,hnew,hm⟩ | ⟨hnew,hm⟩
      · simp [createMultiStore,TtlMap.store,hnew,hm,Reply.atLeast,live_ttl hnew,h]
      · cases hlive : stores.2.live now key <;>
          simp [createMultiStore,TtlMap.store,hnew,hm,hlive,Reply.atLeast,h]
    | getWithTTL key =>
      rcases h.lookup hsafe with ⟨e,hnew,hm⟩ | ⟨hnew,hm⟩
      · simp [createMultiStore,TtlMap.store,hnew,hm,Reply.isTruthy,h]
      · cases hlive : stores.2.live now key <;>
          simp [createMultiStore,TtlMap.store,hnew,hm,hlive,Reply.isTruthy,h]
    | getOrSet key value opts => exact multi_getOrSet parse truthy h opts hsafe.1 hsafe.2.1 hsafe.2.2

end Multi

section Memory

variable {now : ℤ} {key : String}

def SafeForMemory : Call V → Prop
  | .get key | .del key | .ttl key | .getWithTTL key => key ∉ objectPrototype
  | .set key _ opts | .getOrSet key _ opts => key ∉ objectPrototype ∧ 0 ≤ getTtlSec parse opts

inductive Stands (now : ℤ) : Option (Slot V) → Option (Entry V) → Prop where
  | kept (obj : V) {expireAt : ℤ} (h : 0 < expireAt) : Stands now (some ⟨obj,expireAt⟩)
    (some ⟨obj,some expireAt⟩)
  | absent : Stands now none none
  | dropped (obj : V) {expireAt : ℤ} (h : expireAt < now) : Stands now none (some ⟨obj,some expireAt⟩)

structure Mirrors (now : ℤ) (store : MemoryStore V) (m : TtlMap V) : Prop where
  clock : 0 < now
  prototype : store.prototype = none
  entries : ∀ key, Stands now (store.own key) (m key)

variable {store : MemoryStore V} {m : TtlMap V}

theorem Stands.later {slot : Option (Slot V)} {entry : Option (Entry V)} (h : Stands now slot entry)
    (elapsed : ℕ) : Stands (now + elapsed) slot entry := by
  cases h with
  | kept obj h => exact .kept obj h
  | absent => exact .absent
  | dropped obj h => exact .dropped obj (by omega)

theorem Mirrors.empty (h : 0 < now) : Mirrors now (MemoryStore.empty : MemoryStore V) TtlMap.empty :=
  ⟨h,rfl,fun _ => .absent⟩

theorem not_proto (hkey : key ∉ objectPrototype) : key ≠ "__proto__" := by
  intro h
  exact hkey (by simp [h,objectPrototype])

section

variable (h : Mirrors now store m)

include h

theorem Mirrors.assign (hkey : key ∉ objectPrototype) (obj : V) {opts : SetOpts}
    (hopts : 0 ≤ getTtlSec parse opts) :
    Mirrors now (store.assign key (slotFor parse now obj opts)) (m.put parse now key obj opts) := by
  rw [MemoryStore.assign,if_neg (not_proto hkey)]
  refine ⟨h.clock,h.prototype,?_⟩
  intro other
  by_cases hother : other = key
  · have hpos := h.clock
    have hstands : Stands now (some ⟨obj,now + getTtlSec parse opts * 1000⟩)
        (some ⟨obj,some (now + getTtlSec parse opts * 1000)⟩) := .kept obj (by omega)
    simpa [TtlMap.put,TtlMap.assign,hother,hopts,slotFor] using hstands
  · simpa [TtlMap.put,TtlMap.assign,hother] using h.entries other

theorem Mirrors.del (key : String) :
    Mirrors now (store.delete key) (m.assign key none) := by
  refine ⟨h.clock,h.prototype,?_⟩
  intro other
  by_cases hother : other = key
  · simpa [MemoryStore.delete,TtlMap.assign,hother] using Stands.absent
  · simpa [MemoryStore.delete,TtlMap.assign,hother] using h.entries other

theorem Mirrors.drop {obj : V} {expireAt : ℤ} (hm : m key = some ⟨obj,some expireAt⟩)
    (hpast : expireAt < now) : Mirrors now (store.delete key) m := by
  refine ⟨h.clock,h.prototype,?_⟩
  intro other
  by_cases hother : other = key
  · simpa [MemoryStore.delete,hother,hm] using Stands.dropped obj hpast
  · simpa [MemoryStore.delete,hother] using h.entries other

theorem Mirrors.find (hkey : key ∉ objectPrototype) :
    store.find key =
      match store.own key with
      | some e => .slot e
      | none => .missing := by
  rw [MemoryStore.find,if_neg (not_proto hkey),h.prototype]
  simp [hkey]

theorem Mirrors.cases (hkey : key ∉ objectPrototype) :
    (store.find key = .missing ∧ m.live now key = none) ∨
      ∃ obj expireAt, 0 < expireAt ∧ store.find key = .slot ⟨obj,expireAt⟩ ∧
        (expireAt < now ∧ m.live now key = none ∧ Mirrors now (store.delete key) m ∨
          ¬expireAt < now ∧ m.live now key = some ⟨obj,some expireAt⟩) := by
  have hentries := h.entries key
  rw [h.find hkey]
  obtain ⟨slot,hslot⟩ : ∃ slot, store.own key = slot := ⟨_,rfl⟩
  obtain ⟨entry,hentry⟩ : ∃ entry, m key = entry := ⟨_,rfl⟩
  rw [hslot,hentry] at hentries
  rw [TtlMap.live,hslot,hentry]
  cases hentries with
  | absent => exact .inl ⟨rfl,rfl⟩
  | dropped obj hpast => exact .inl ⟨rfl,by simp [Entry.live,hpast]⟩
  | @kept obj expireAt hpos =>
    refine .inr ⟨obj,expireAt,hpos,rfl,?_⟩
    by_cases hpast : expireAt < now
    · exact .inl ⟨hpast,by simp [Entry.live,hpast],h.drop hentry hpast⟩
    · exact .inr ⟨hpast,by simp [Entry.live,not_lt.mp hpast]⟩

end

theorem memory_simulation :
    Simulation (createMemoryStore parse) (TtlMap.store parse) (fun _ call _ => SafeForMemory parse call)
      (Mirrors (V := V)) where
  later elapsed h := ⟨by have := h.clock; omega,h.prototype,fun key => (h.entries key).later elapsed⟩
  step := by
    intro now call store m h hsafe
    cases call with
    | set key obj opts => exact ⟨rfl,h.assign parse hsafe.1 obj hsafe.2⟩
    | del key => exact ⟨rfl,h.del key⟩
    | get key | ttl key | getWithTTL key =>
      obtain ⟨hfind,hlive⟩ | ⟨obj,expireAt,hpos,hfind,⟨hpast,hlive,hdrop⟩ | ⟨hpast,hlive⟩⟩ := h.cases hsafe
      · simpa [createMemoryStore,TtlMap.store,hfind,hlive] using h
      · simpa [createMemoryStore,TtlMap.store,hfind,hlive,hpast,hpos.ne'] using hdrop
      · simpa [createMemoryStore,TtlMap.store,hfind,hlive,hpast,hpos.ne',Entry.ttl] using h
    | getOrSet key value opts =>
      have hset := h.assign parse hsafe.1 value hsafe.2
      obtain ⟨hfind,hlive⟩ | ⟨obj,expireAt,_,hfind,⟨hpast,hlive,_⟩ | ⟨hpast,hlive⟩⟩ := h.cases hsafe.1
      · simpa [createMemoryStore,TtlMap.store,hfind,hlive] using hset
      · simpa [createMemoryStore,TtlMap.store,hfind,hlive,hpast] using hset
      · simpa [createMemoryStore,TtlMap.store,hfind,hlive,hpast] using h

end Memory

section Results

variable (calls : List (ℕ × Call V)) (now : ℤ)

theorem stores_act_as_one_map :
    (∀ oldStore : TtlMap V,
      Along (createMultiStore truthy (TtlMap.store parse) (TtlMap.store parse)) (SafeForBoth truthy) now
        (TtlMap.empty,oldStore) calls →
      replies (createMultiStore truthy (TtlMap.store parse) (TtlMap.store parse)) now
        (TtlMap.empty,oldStore) calls =
        replies (TtlMap.store parse) now oldStore calls) ∧
    (0 < now → (∀ call ∈ calls, SafeForMemory parse call.2) →
      replies (createMemoryStore parse) now MemoryStore.empty calls =
        replies (TtlMap.store parse) now TtlMap.empty calls) := by
  constructor
  · intro oldStore hsafe
    exact (multi_simulation parse truthy).replies (fun _ => rfl) calls hsafe
  · intro hclock hsafe
    exact (memory_simulation parse).replies (Mirrors.empty hclock) calls (along_of_forall _ _ _ hsafe)

def sampleParse : String → Option ℚ := fun _ => none

def siteStore : TtlMap ℕ := TtlMap.empty.assign "visits" (some ⟨7,some 900000⟩)

def migration : List (ℕ × Call ℕ) :=
  [(0,.get "visits"),(10,.set "visits" 8 (.number 60)),(5,.get "visits"),(0,.getOrSet "seen" 1 .absent),
    (1000,.ttl "visits"),(0,.del "visits"),(0,.getWithTTL "visits"),(3,.getOrSet "seen" 2 .absent)]

theorem stores_act_as_one_map_migration :
    (Along (createMultiStore (· ≠ 0) (TtlMap.store sampleParse) (TtlMap.store sampleParse))
        (SafeForBoth (· ≠ 0)) 1000 (TtlMap.empty,siteStore) migration ∧
      replies (createMultiStore (· ≠ 0) (TtlMap.store sampleParse) (TtlMap.store sampleParse)) 1000
          (TtlMap.empty,siteStore) migration =
        replies (TtlMap.store sampleParse) 1000 siteStore migration) ∧
    (∀ call ∈ migration, SafeForMemory sampleParse call.2) ∧
      replies (createMemoryStore sampleParse) 1000 MemoryStore.empty migration =
        replies (TtlMap.store sampleParse) 1000 TtlMap.empty migration := by
  have hboth : Along (createMultiStore (· ≠ 0) (TtlMap.store sampleParse) (TtlMap.store sampleParse))
      (SafeForBoth (· ≠ 0)) 1000 (TtlMap.empty,siteStore) migration := by
    decide +kernel
  have hmemory : ∀ call ∈ migration, SafeForMemory sampleParse call.2 := by
    simp [migration,SafeForMemory,objectPrototype,getTtlSec,maxAllowedTTL,defaultTTL]
  have h := stores_act_as_one_map sampleParse (· ≠ 0) migration 1000
  exact ⟨⟨hboth,h.1 siteStore hboth⟩,hmemory,h.2 (by decide) hmemory⟩

theorem zero_and_inf_are_lost :
    replies (createMultiStore (· ≠ 0) (TtlMap.store sampleParse) (TtlMap.store sampleParse)) 1000
        (TtlMap.empty,siteStore) [(0,.set "visits" 0 .absent),(0,.get "visits")] = [.undefined,.value 7] ∧
      replies (TtlMap.store sampleParse) 1000 siteStore [(0,.set "visits" 0 .absent),(0,.get "visits")] =
        [.undefined,.value 0] ∧
      replies (createMultiStore (· ≠ 0) (TtlMap.store sampleParse) (TtlMap.store sampleParse)) 1000
        (TtlMap.empty,siteStore) [(0,.getOrSet "visits" 1 .absent)] = [.value 1] ∧
      replies (TtlMap.store sampleParse) 1000 siteStore [(0,.getOrSet "visits" 1 .absent)] = [.value 7] ∧
      replies (createMultiStore (· ≠ 0) (TtlMap.store sampleParse) (TtlMap.store sampleParse)) 1000
        (TtlMap.empty,siteStore) [(0,.set "visits" 8 (.number 1)),(2000,.get "visits")] =
          [.undefined,.value 7] ∧
      replies (TtlMap.store sampleParse) 1000 siteStore
        [(0,.set "visits" 8 (.number 1)),(2000,.get "visits")] =
        [.undefined,.undefined] ∧
      replies (createMemoryStore sampleParse) 5000 MemoryStore.empty
        [(0,.set "visits" 1 (.text "inf")),(0,.get "visits")] = [.undefined,.undefined] ∧
      replies (TtlMap.store sampleParse) 5000 TtlMap.empty
        [(0,.set "visits" 1 (.text "inf")),(0,.get "visits")] = [.undefined,.value 1] := by
  decide +kernel

end Results

end Jitsu.Functions
