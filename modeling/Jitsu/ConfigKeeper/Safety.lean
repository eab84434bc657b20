import Jitsu.ConfigKeeper.Breaker

namespace Jitsu.ConfigKeeper
open Transition

def lastAccepted : List Entry → Option Bytes
  | [] => none
  | .restart seed :: _ => seed
  | .accept _ :: trace => lastAccepted trace
  | .generation payload :: _ => some payload

def armedUntil : List Entry → Option ℕ
  | .accept time :: _ => some (time + acceptTTL)
  | _ => none

def rowHashMap (decode : Decoder) (payload : Option Bytes) : RowMap :=
  ((payload.bind (payloadRows decode)).map RowHashes.hashes).getD []

def Keeper.served (k : Keeper) : Option Bytes := k.repository.bind fun r => r.breaker.data

variable (cfg : BreakerConfig) (decode : Decoder)

structure Within (old updated : RowMap) : Prop where
  changed : (changedRows old updated).length < cfg.minChangedRows ∨
    percent (changedRows old updated).length (commonRows old updated).length ≤ cfg.maxChangePercent
  removed : ((old.length - (commonRows old updated).length : ℕ) : ℤ) < cfg.minChangedRows ∨
    percent (old.length - (commonRows old updated).length) old.length ≤ cfg.maxRemovePercent

structure Admissible (trace : List Entry) (now : ℕ) (payload : Bytes) : Prop where
  array : ∃ rows, decode payload = some (.arr rows)
  rows : ∃ r, payloadRows decode payload = some r ∧
    (0 < r.noId → percent r.noId (r.noId + r.hashes.length) ≤ cfg.maxRemovePercent) ∧
    ((∃ t, armedUntil trace = some t ∧ now < t) ∨ rowHashMap decode (lastAccepted trace) = [] ∨
      Within cfg (rowHashMap decode (lastAccepted trace)) r.hashes)

def Plain (payload : Bytes) : Prop := ∀ json, decode payload = some json → json ≠ .null

def Tagged (k : Keeper) : Action → Prop
  | .refresh attempts => ∀ a ∈ attempts, ∀ payload tag, a.fetch = .body payload tag →
      Plain decode payload ∧ (tag ≠ none ∨ k.served ≠ none)
  | .restart => ∀ data ∈ k.cache, Plain decode data
  | _ => True

variable {cfg decode} {b : Breaker} {now : ℕ} {payload : Bytes} {tag : Option ℕ}

theorem trip_none {old updated : RowMap} (h : Breaker.trip cfg old updated = none) :
    Within cfg old updated := by
  simp only [Breaker.trip] at h
  split at h
  · cases h
  · split at h
    · cases h
    · rename_i hc hr
      rw [not_and_or,not_le,not_lt] at hc hr
      exact ⟨hc,hr⟩

structure Passed (cfg : BreakerConfig) (now : ℕ) (b : Breaker) (r : RowHashes) : Prop where
  tracked : ¬Breaker.untracked cfg r
  close : b.armed now = true ∨ b.baseline = [] ∨ Within cfg b.baseline r.hashes

structure Refused (b b' : Breaker) : Prop where
  baseline : b'.baseline = b.baseline
  data : b'.data = b.data
  armed : b'.acceptArmedUntil = b.acceptArmedUntil

theorem judge_cases {r : RowHashes} {out : Verdict × Breaker} (h : b.judge cfg now payload tag r = out) :
    Refused b out.2 ∧ out.1.ok = false ∨
      Passed cfg now b r ∧ out = b.serve payload tag r.hashes := by
  unfold Breaker.judge at h
  split at h
  · subst h
    exact .inl ⟨⟨rfl,rfl,rfl⟩,rfl⟩
  · rename_i hu
    split at h
    · rename_i verdict hv
      subst h
      refine .inl ⟨⟨rfl,rfl,rfl⟩,?_⟩
      split at hv
      · simp only [Breaker.trip] at hv
        split at hv
        · cases hv
          rfl
        · split at hv
          · cases hv
            rfl
          · cases hv
      · cases hv
    · rename_i hv
      refine .inr ⟨⟨hu,?_⟩,h.symm⟩
      split at hv
      · exact .inr (.inr (trip_none hv))
      · rename_i hn
        rw [not_and_or,not_not,Bool.not_eq_false] at hn
        rcases hn with hn | hn
        · exact .inr (.inl hn)
        · exact .inl hn

theorem init_cases {out : Verdict × Breaker} (h : b.init cfg decode now payload tag = out) :
    Refused b out.2 ∧ out.1.ok = false ∨
      ∃ r, payloadRows decode payload = some r ∧ Passed cfg now b r ∧ out = b.serve payload tag r.hashes := by
  unfold Breaker.init at h
  split at h
  · subst h
    exact .inl ⟨⟨rfl,rfl,rfl⟩,rfl⟩
  · split at h
    · subst h
      exact .inl ⟨⟨rfl,rfl,rfl⟩,rfl⟩
    · rename_i r hr
      rcases judge_cases h with h | h
      · exact .inl h
      · exact .inr ⟨r,hr,h⟩

theorem serve_cases {updated : RowMap} :
    (b.serve payload tag updated).1.ok = true ∧ (b.serve payload tag updated).2.data = some payload ∧
      (b.serve payload tag updated).2.acceptArmedUntil = none ∧
      ((b.serve payload tag updated).2.baseline = updated ∨
        b.replays tag updated ∧ (b.serve payload tag updated).2.baseline = b.baseline) := by
  unfold Breaker.serve
  split
  · rename_i h
    exact ⟨rfl,rfl,rfl,.inr ⟨h,rfl⟩⟩
  · exact ⟨rfl,rfl,rfl,.inl rfl⟩

section Refresh

variable {settings : Settings} {k k' : Keeper} {r : Repository}

def Keeper.seed (decode : Decoder) (settings : Settings) (k : Keeper) : Option Bytes :=
  (if settings.cacheDir then k.cache else none).filter fun data => (payloadRows decode data).isSome

structure RepositoryInv (decode : Decoder) (settings : Settings) (k : Keeper) (r : Repository) : Prop where
  baseline : r.breaker.baseline = rowHashMap decode (lastAccepted k.trace)
  armed : r.breaker.acceptArmedUntil = armedUntil k.trace
  fresh : r.breaker.data = none → lastAccepted k.trace = k.seed decode settings
  plain : ∀ data ∈ k.cache, Plain decode data

def KeeperInv (decode : Decoder) (settings : Settings) (k : Keeper) : Prop :=
  ∀ r ∈ k.repository, RepositoryInv decode settings k r

section

variable (hr : RepositoryInv decode settings k r)

include hr

theorem Refused.inv {b' : Breaker} {t : Option ℕ} {i : Bool}
    (h : Refused r.breaker b') : RepositoryInv decode settings k ⟨b',i,t⟩ where
  baseline := h.baseline.trans hr.baseline
  armed := h.armed.trans hr.armed
  fresh := fun hd => hr.fresh (h.data.symm.trans hd)
  plain := hr.plain

theorem RepositoryInv.tick {n : ℕ} :
    RepositoryInv decode settings { k with now := n } r :=
  ⟨hr.baseline,hr.armed,hr.fresh,hr.plain⟩

theorem RepositoryInv.keeper :
    KeeperInv decode settings { k with repository := some r } := by
  rintro _ ⟨⟩
  exact ⟨hr.baseline,hr.armed,hr.fresh,hr.plain⟩

end

variable {rows : RowHashes}

theorem plain_array (hp : Plain decode payload)
    (h : payloadRows decode payload = some rows) : ∃ items, decode payload = some (.arr items) := by
  simp only [payloadRows,Option.bind_eq_some_iff] at h
  obtain ⟨json,hj,h⟩ := h
  cases json with
  | arr items => exact ⟨items,hj⟩
  | null => exact absurd rfl (hp _ hj)
  | _ => simp [hashRows,unmarshalRows] at h

theorem Passed.admissible (hr : RepositoryInv decode settings k r)
    (hp : Plain decode payload) (hrows : payloadRows decode payload = some rows)
    (h : Passed cfg now r.breaker rows) : Admissible cfg decode k.trace now payload where
  array := plain_array hp hrows
  rows := by
    refine ⟨rows,hrows,fun hn => ?_,?_⟩
    · by_contra hc
      exact h.tracked ⟨hn,not_le.mp hc⟩
    · rw [← hr.baseline,← hr.armed]
      rcases h.close with ha | h
      · simp only [Breaker.armed,Option.any_eq_true,decide_eq_true_eq] at ha
        exact .inl ha
      · exact .inr h

structure Generated (cfg : BreakerConfig) (decode : Decoder) (k k' : Keeper) (payload : Bytes) : Prop where
  trace : k'.trace = .generation payload :: k.trace
  served : k'.served = some payload
  admissible : Admissible cfg decode k.trace k'.now payload

theorem rowHashMap_some (h : payloadRows decode payload = some rows) :
    rowHashMap decode (some payload) = rows.hashes := by
  simp [rowHashMap,h]

theorem generation_inv {t : Option ℕ} (hr : RepositoryInv decode settings k r)
    (hrows : payloadRows decode payload = some rows)
    (hreplay : r.breaker.replays tag rows.hashes → k.seed decode settings = some payload) :
    KeeperInv decode settings
      (k.generation payload { r with tag := t } (r.breaker.serve payload tag rows.hashes).2) := by
  obtain ⟨_,hdata,harm,hbase⟩ := @serve_cases r.breaker payload tag rows.hashes
  rintro _ ⟨⟩
  refine ⟨?_,harm,fun hd => ?_,hr.plain⟩
  · change _ = rowHashMap decode (some payload)
    rw [rowHashMap_some hrows]
    rcases hbase with h | ⟨hrep,h⟩
    · exact h
    · rw [h,hr.baseline,hr.fresh hrep.2.2.1,hreplay hrep,rowHashMap_some hrows]
  · rw [hdata] at hd
    cases hd

variable {stored : Bool}

theorem KeeperInv.store (hk : KeeperInv decode settings k) (hp : Plain decode payload)
    (hs : k.served ≠ none) : KeeperInv decode settings (k.store settings stored payload) := by
  unfold Keeper.store
  split
  · intro r hr
    have hi := hk r hr
    refine ⟨hi.baseline,hi.armed,fun hd => ?_,?_⟩
    · refine absurd ?_ hs
      rw [Keeper.served,show k.repository = some r from hr]
      exact hd
    · rintro _ ⟨⟩
      exact hp
  · exact hk

theorem store_frame : (k.store settings stored payload).trace = k.trace ∧
    (k.store settings stored payload).served = k.served ∧ (k.store settings stored payload).now = k.now := by
  unfold Keeper.store
  split <;> exact ⟨rfl,rfl,rfl⟩

structure Kept (k k' : Keeper) (r : Repository) : Prop where
  trace : k'.trace = k.trace
  repository : ∀ r' ∈ k'.repository, r'.breaker.data = r.breaker.data ∧
    r'.breaker.baseline = r.breaker.baseline

def Refreshed (cfg : BreakerConfig) (decode : Decoder) (settings : Settings) (k k' : Keeper) (r : Repository) :
    Prop :=
  KeeperInv decode settings k' ∧ (Kept k k' r ∨ ∃ payload, Generated cfg decode k k' payload)

theorem loadCached_refreshed (hr : RepositoryInv decode settings k r) :
    Refreshed cfg decode settings k (k.loadCached cfg decode settings r) r := by
  unfold Keeper.loadCached
  have hdead : Refreshed cfg decode settings k { k with repository := none } r :=
    ⟨by rintro _ ⟨⟩,.inl ⟨rfl,by rintro _ ⟨⟩⟩⟩
  split
  · exact hdead
  · rename_i data hcache
    dsimp only
    split
    · exact hdead
    · rename_i hok
      rw [not_or,Bool.not_eq_false] at hok
      rcases init_cases (rfl : r.breaker.init cfg decode k.now data none = _) with ⟨_,h⟩ | ⟨rows,hrows,hp,hout⟩
      · rw [h] at hok
        cases hok.2
      · have hmem : data ∈ k.cache := by
          split at hcache
          · exact hcache
          · cases hcache
        rw [hout]
        refine ⟨generation_inv (t := r.tag) hr hrows fun _ => ?_,.inr ⟨data,rfl,?_,?_⟩⟩
        · simp [Keeper.seed,hcache,hrows]
        · exact (@serve_cases r.breaker data none rows.hashes).2.1
        · exact hp.admissible hr (hr.plain data hmem) hrows

theorem stored_refreshed (hr : RepositoryInv decode settings k r)
    (hplain : Plain decode payload) (hrows : payloadRows decode payload = some rows)
    (hp : Passed cfg k.now r.breaker rows) (hrep : ¬r.breaker.replays tag rows.hashes) :
    Refreshed cfg decode settings k ((k.generation payload { r with tag := tag }
      (r.breaker.serve payload tag rows.hashes).2).store settings stored payload) r := by
  have hdata := (@serve_cases r.breaker payload tag rows.hashes).2.1
  have hgen := generation_inv (t := tag) hr hrows fun h => absurd h hrep
  obtain ⟨htrace,hserved,hnow⟩ := @store_frame payload settings (k.generation payload { r with tag := tag }
    (r.breaker.serve payload tag rows.hashes).2) stored
  refine ⟨hgen.store hplain ?_,.inr ⟨payload,htrace,hserved.trans hdata,?_⟩⟩
  · intro hnone
    exact absurd (hdata.symm.trans hnone) (by simp)
  · rw [hnow]
    exact hp.admissible hr hplain hrows

theorem Refreshed.before {n : ℕ} {r' : Repository}
    (h : Refreshed cfg decode settings { k with now := n } k' r')
    (hd : r'.breaker.data = r.breaker.data) (hb : r'.breaker.baseline = r.breaker.baseline) :
    Refreshed cfg decode settings k k' r := by
  refine ⟨h.1,h.2.imp (fun h => ⟨h.trace,fun x hx => ?_⟩) fun ⟨p,h⟩ => ⟨p,h.trace,h.served,h.admissible⟩⟩
  exact ⟨(h.repository x hx).1.trans hd,(h.repository x hx).2.trans hb⟩

theorem refresh_refreshed {attempts : List Attempt} {error : Bool} (hr : RepositoryInv decode settings k r)
    (hok : ∀ a ∈ attempts, ∀ payload tag, a.fetch = .body payload tag →
      Plain decode payload ∧ (tag ≠ none ∨ r.breaker.data ≠ none)) :
    Refreshed cfg decode settings k (k.refresh cfg decode settings error r attempts) r := by
  induction attempts generalizing k r error with
  | nil =>
    rw [Keeper.refresh]
    split
    · exact loadCached_refreshed hr
    · exact ⟨hr.keeper,.inl ⟨rfl,by rintro _ ⟨⟩; exact ⟨rfl,rfl⟩⟩⟩
  | cons a attempts ih =>
    have hrest := fun a ha => hok a (List.mem_cons_of_mem _ ha)
    rw [Keeper.refresh]
    split
    · exact (ih hr.tick hrest).before rfl rfl
    · exact (ih hr.tick hrest).before rfl rfl
    · exact ⟨hr.tick.keeper,.inl ⟨rfl,by rintro _ ⟨⟩; exact ⟨rfl,rfl⟩⟩⟩
    · rename_i payload tag hbody
      obtain ⟨hplain,htag⟩ := hok a List.mem_cons_self payload tag hbody
      rcases init_cases (rfl : r.breaker.init cfg decode (k.now + a.elapsed) payload tag = _) with
        ⟨hf,hv⟩ | ⟨rows,hrows,hp,hout⟩
      · rw [if_neg (by simp [hv])]
        exact (ih (hf.inv hr).tick (by simpa only [hf.data] using hrest)).before hf.data hf.baseline
      · have hrep : ¬r.breaker.replays tag rows.hashes := fun h => htag.elim (absurd h.1) (absurd h.2.2.1)
        have hsok := (@serve_cases r.breaker payload tag rows.hashes).1
        rw [hout,if_pos hsok]
        exact (stored_refreshed hr.tick hplain hrows hp hrep).before rfl rfl

theorem keeper_step {a : Action} (hk : KeeperInv decode settings k) (hok : Tagged decode k a)
    (h : (keeper cfg decode settings).step k a = some k') : KeeperInv decode settings k' ∧
      ∀ payload, k'.served = some payload → k.served ≠ some payload →
        Admissible cfg decode k.trace k'.now payload := by
  cases a with
  | refresh attempts =>
    simp only [keeper,Option.bind_eq_some_iff] at h
    obtain ⟨r,hr,h⟩ := h
    split at h
    · cases h
      have hserved : k.served = r.breaker.data := by rw [Keeper.served,hr,Option.bind_some]
      have href : Refreshed cfg decode settings k (k.refresh cfg decode settings false r attempts) r :=
        refresh_refreshed (hk r hr) (by simpa only [Tagged,hserved] using hok)
      obtain ⟨hinv,hkept | ⟨p,hgen⟩⟩ := href
      · refine ⟨hinv,fun payload hs hne => absurd ?_ hne⟩
        obtain ⟨r',hr',hd⟩ := Option.bind_eq_some_iff.mp hs
        rw [hserved,← (hkept.repository r' hr').1,hd]
      · refine ⟨hinv,fun payload hs _ => ?_⟩
        rw [hgen.served,Option.some.injEq] at hs
        exact hs ▸ hgen.admissible
    · cases h
  | acceptNext =>
    simp only [keeper,Option.map_eq_some_iff] at h
    obtain ⟨r,hr,rfl⟩ := h
    have hi := hk r hr
    refine ⟨?_,fun payload hs hne => absurd ?_ hne⟩
    · rintro _ ⟨⟩
      exact ⟨hi.baseline,rfl,hi.fresh,hi.plain⟩
    · rw [Keeper.served,hr]
      exact hs
  | tick elapsed =>
    cases h
    exact ⟨fun r hr => (hk r hr).tick,fun payload hs hne => absurd hs hne⟩
  | restart =>
    cases h
    refine ⟨?_,by rintro _ ⟨⟩⟩
    rintro _ ⟨⟩
    exact ⟨rfl,rfl,fun _ => rfl,hok⟩

end Refresh

theorem breaker_safety {settings : Settings} {k : Keeper}
    (hr : (keeper cfg decode settings).Reachable (Tagged decode) k) :
    (∀ r ∈ k.repository, r.breaker.baseline = rowHashMap decode (lastAccepted k.trace)) ∧
    (∀ a k', Tagged decode k a → (keeper cfg decode settings).step k a = some k' →
      ∀ payload, k'.served = some payload → k.served ≠ some payload →
        Admissible cfg decode k.trace k'.now payload) ∧
    ∀ r ∈ k.repository, ∀ now payload tag, (r.breaker.init cfg decode now payload tag).1.ok = false →
      (r.breaker.init cfg decode now payload tag).2.data = r.breaker.data ∧
        (r.breaker.init cfg decode now payload tag).2.baseline = r.breaker.baseline := by
  have hinv : KeeperInv decode settings k := by
    refine hr.invariant (fun k hk r hmem => ?_) fun k a k' hk hok h => (keeper_step hk hok h).1
    rw [hk.1] at hmem
    cases hmem
  refine ⟨fun r hmem => (hinv r hmem).baseline,fun a k' hok h => (keeper_step hinv hok h).2,?_⟩
  intro r _ now payload tag hv
  rcases init_cases (rfl : r.breaker.init cfg decode now payload tag = _) with ⟨hf,_⟩ | ⟨rows,_,_,hout⟩
  · exact ⟨hf.data,hf.baseline⟩
  · rw [hout,(@serve_cases r.breaker payload tag rows.hashes).1] at hv
    cases hv

section Outage

def sampleRow (id : Char) (fields : List (Bytes × Json)) : Json := .obj ((idKey,.str [byte id]) :: fields)

def jsonText (text : String) : Bytes := text.toList.map byte

def rowsText : Bytes := jsonText "[\x7b\"id\":\"a\"\x7d,\x7b\"id\":\"b\"\x7d,\x7b\"id\":\"c\"\x7d]"

def changedText : Bytes :=
  jsonText "[\x7b\"id\":\"a\",\"v\":1\x7d,\x7b\"id\":\"b\",\"v\":1\x7d,\x7b\"id\":\"c\",\"v\":1\x7d]"

def shortText : Bytes := jsonText "[\x7b\"id\":\"a\"\x7d,\x7b\"id\":\"b\"\x7d]"

def nullText : Bytes := jsonText "null"

def sampleDecode : Decoder := fun payload =>
  let changes : List (Bytes × Json) := [([byte 'v'],.num [byte '1'])]
  if payload = rowsText then some (.arr [sampleRow 'a' [],sampleRow 'b' [],sampleRow 'c' []])
  else if payload = changedText then
    some (.arr [sampleRow 'a' changes,sampleRow 'b' changes,sampleRow 'c' changes])
  else if payload = shortText then some (.arr [sampleRow 'a' [],sampleRow 'b' []])
  else if payload = nullText then some .null
  else none

def sampleConfig : BreakerConfig := ⟨50,50,1⟩

def cachedKeeper : Keeper := ⟨0,some rowsText,none,[]⟩

def emptyKeeper : Keeper := ⟨0,none,none,[]⟩

abbrev sampleSystem : System Keeper Action := keeper sampleConfig sampleDecode ⟨true,2⟩

def untaggedOutage : List Action :=
  [.restart,.refresh [⟨0,.body changedText (some 1),true⟩,⟨1,.body shortText none,true⟩]]

def nullOutage : List Action := [.restart,.refresh [⟨0,.body nullText (some 1),true⟩,⟨0,.failed,true⟩]]

def quietStart : List Action := [.restart,.refresh [⟨0,.body rowsText (some 1),true⟩,⟨0,.failed,true⟩]]

theorem untagged_response_strands_baseline :
    (∃ k, sampleSystem.Reachable (fun _ _ => True) k ∧
      ∃ r ∈ k.repository, r.breaker.baseline ≠ rowHashMap sampleDecode (lastAccepted k.trace)) ∧
    ∃ k, sampleSystem.Reachable (fun _ _ => True) k ∧
      ∃ payload, k.served = some payload ∧ ¬∃ rows, sampleDecode payload = some (.arr rows) := by
  have hrun : (sampleSystem.run cachedKeeper untaggedOutage).any (fun k => k.repository.any fun r =>
      r.breaker.baseline ≠ rowHashMap sampleDecode (lastAccepted k.trace)) = true := by decide +kernel
  have hnull : (sampleSystem.run emptyKeeper nullOutage).any (fun k => k.served = some nullText) = true := by
    decide +kernel
  simp only [Option.any_eq_true,decide_eq_true_eq] at hrun hnull
  obtain ⟨k,hk,r,hr,hne⟩ := hrun
  obtain ⟨k',hk',hs⟩ := hnull
  refine ⟨⟨k,System.Reachable.run (.initial ⟨rfl,rfl⟩) hk,r,hr,hne⟩,k',
    System.Reachable.run (.initial ⟨rfl,rfl⟩) hk',nullText,hs,?_⟩
  rintro ⟨rows,hrows⟩
  cases (show sampleDecode nullText = some .null from rfl).symm.trans hrows

theorem sampleDecode_plain : Plain sampleDecode rowsText := by
  intro json hj
  rw [sampleDecode,if_pos rfl] at hj
  cases hj
  simp

theorem breaker_safety_quietStart : ∃ k, sampleSystem.run emptyKeeper quietStart = some k ∧
    k.served = some rowsText ∧
      ∀ r ∈ k.repository, r.breaker.baseline = rowHashMap sampleDecode (some rowsText) := by
  have hrun : (sampleSystem.run emptyKeeper quietStart).any (fun k => k.served = some rowsText ∧
      lastAccepted k.trace = some rowsText) = true := by decide +kernel
  simp only [Option.any_eq_true,decide_eq_true_eq] at hrun
  obtain ⟨k,hk,hs,hl⟩ := hrun
  refine ⟨k,hk,hs,?_⟩
  rw [← hl]
  have hboot : sampleSystem.Reachable (Tagged sampleDecode) (emptyKeeper.boot sampleDecode ⟨true,2⟩) :=
    .step (.initial ⟨rfl,rfl⟩) (a := .restart) (by rintro _ ⟨⟩) rfl
  have hreach : sampleSystem.Reachable (Tagged sampleDecode) k := by
    refine .step hboot (a := .refresh [⟨0,.body rowsText (some 1),true⟩,⟨0,.failed,true⟩]) ?_ hk
    intro a ha payload tag hbody
    simp only [List.mem_cons,List.not_mem_nil,or_false] at ha
    rcases ha with rfl | rfl
    · cases hbody
      exact ⟨sampleDecode_plain,.inl (by simp)⟩
    · cases hbody
  exact (breaker_safety hreach).1

end Outage

end Jitsu.ConfigKeeper
