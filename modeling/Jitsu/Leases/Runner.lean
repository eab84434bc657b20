import Jitsu.Lib.Transition
import Jitsu.Lib.Versioned

namespace Jitsu.Leases.Runner

open Jitsu.Transition Jitsu.Versioned

variable {H : Type}

structure LeaseSpec (H : Type) where
  holderIdentity : H
  leaseDurationSeconds : ℕ
  renewTime : ℕ
  deriving DecidableEq, Repr

abbrev Lease (H : Type) := Stored (LeaseSpec H)

def active (now : ℕ) (l : LeaseSpec H) : Bool := now < l.renewTime + l.leaseDurationSeconds * 1000

inductive Method where
  | acquire
  | renew
  | release
  deriving DecidableEq, Repr

inductive Call (H : Type) where
  | read (m : Method) (current : Option (Lease H))
  | write (m : Method) (current : Option (Lease H)) (renewTime : ℕ)
  | answer (m : Method) (applied : ℕ)
  deriving DecidableEq, Repr

structure Holder (H : Type) where
  held : Bool
  calls : List (Call H)

def Holder.start : Holder H := ⟨false,[]⟩

inductive Event (H : Type) where
  | acquired (h : H)
  | put (h : H)
  | renewed (h : H) (applied : ℕ)
  | deleted (h : H) (l : LeaseSpec H)
  deriving DecidableEq, Repr

structure Cluster (H : Type) where
  server : Store (LeaseSpec H)
  holders : H → Holder H
  history : List (Event H)

inductive Action (H : Type) where
  | get (h : H) (m : Method)
  | check (h : H) (call now renewTime : ℕ)
  | write (h : H) (call : ℕ)
  | answer (h : H) (call : ℕ)
  | fail (h : H) (call : ℕ)
  deriving DecidableEq, Repr

section Model

variable [DecidableEq H]

def acquireCheck (holder : Holder H) (current : Option (Lease H)) (now renewTime : ℕ) : Holder H :=
  if current.all (fun l => !active now l.value) then
    { holder with calls := holder.calls ++ [.write .acquire current renewTime] }
  else holder

def renewCheck (h : H) (holder : Holder H) (current : Option (Lease H)) (now renewTime : ℕ) : Holder H :=
  if holder.held ∧ current.any (fun l => l.value.holderIdentity = h ∧ active now l.value) then
    { holder with calls := holder.calls ++ [.write .renew current renewTime] }
  else holder

def releaseCheck (h : H) (holder : Holder H) (current : Option (Lease H)) (renewTime : ℕ) : Holder H :=
  if current.any (fun l => l.value.holderIdentity = h) then
    { holder with calls := holder.calls ++ [.write .release current renewTime] }
  else { holder with held := false }

namespace Cluster

def setHolder (c : Cluster H) (h : H) (holder : Holder H) : Cluster H :=
  { c with holders := Function.update c.holders h holder }

theorem setHolder_self (c : Cluster H) (h : H) (holder : Holder H) :
    (c.setHolder h holder).holders h = holder := Function.update_self ..

theorem setHolder_other (c : Cluster H) {h q : H} (holder : Holder H) (hne : q ≠ h) :
    (c.setHolder h holder).holders q = c.holders q := Function.update_of_ne hne ..

def get (c : Cluster H) (h : H) (m : Method) : Cluster H :=
  let holder := c.holders h
  if m = .release ∧ holder.held = false then c
  else c.setHolder h { holder with calls := holder.calls ++ [.read m c.server.object] }

def dropped (c : Cluster H) (h : H) (call : ℕ) : Holder H :=
  { c.holders h with calls := (c.holders h).calls.eraseIdx call }

def check (c : Cluster H) (h : H) (call now renewTime : ℕ) : Option (Cluster H) :=
  match (c.holders h).calls[call]? with
  | some (.read .acquire current) =>
    some (c.setHolder h (acquireCheck (c.dropped h call) current now renewTime))
  | some (.read .renew current) => some (c.setHolder h (renewCheck h (c.dropped h call) current now renewTime))
  | some (.read .release current) => some (c.setHolder h (releaseCheck h (c.dropped h call) current renewTime))
  | _ => none

def awaiting (c : Cluster H) (h : H) (call : ℕ) (m : Method) : Cluster H :=
  c.setHolder h { c.dropped h call with calls := (c.dropped h call).calls ++ [.answer m c.history.length] }

def acquireSave (c : Cluster H) (h : H) (call : ℕ) (current : Option (Lease H)) (renewTime : ℕ) : Cluster H :=
  match c.server.write current ⟨h,60,renewTime⟩ with
  | none => c.setHolder h (c.dropped h call)
  | some server =>
    { c.awaiting h call .acquire with server := server, history := c.history ++ [.acquired h] }

def renewPut (c : Cluster H) (h : H) (call : ℕ) (l : Lease H) (renewTime : ℕ) : Cluster H :=
  match c.server.replace l.resourceVersion { l.value with renewTime := renewTime } with
  | none => c.setHolder h (c.dropped h call)
  | some server => { c.awaiting h call .renew with server := server, history := c.history ++ [.put h] }

def releaseDelete (c : Cluster H) (h : H) (call : ℕ) (l : Lease H) : Cluster H :=
  match c.server.removeIf l.uid l.resourceVersion with
  | none => c.awaiting h call .release
  | some server =>
    { c.awaiting h call .release with
      server := server
      history := c.history ++ (c.server.object.map (fun o => .deleted h o.value)).toList }

def write (c : Cluster H) (h : H) (call : ℕ) : Option (Cluster H) :=
  match (c.holders h).calls[call]? with
  | some (.write .acquire current renewTime) => some (c.acquireSave h call current renewTime)
  | some (.write .renew (some l) renewTime) => some (c.renewPut h call l renewTime)
  | some (.write .release (some l) _) => some (c.releaseDelete h call l)
  | _ => none

def answer (c : Cluster H) (h : H) (call : ℕ) : Option (Cluster H) :=
  match (c.holders h).calls[call]? with
  | some (.answer .acquire _) => some (c.setHolder h { c.dropped h call with held := true })
  | some (.answer .renew applied) =>
    some { c.setHolder h (c.dropped h call) with history := c.history ++ [.renewed h applied] }
  | some (.answer .release _) => some (c.setHolder h { c.dropped h call with held := false })
  | _ => none

def step (c : Cluster H) : Action H → Option (Cluster H)
  | .get h m => some (c.get h m)
  | .check h call now renewTime => c.check h call now renewTime
  | .write h call => c.write h call
  | .answer h call => c.answer h call
  | .fail h call => some (c.setHolder h (c.dropped h call))

end Cluster

def runners (H : Type) [DecidableEq H] : System (Cluster H) (Action H) where
  initial c := c.server.Current ∧ (∀ h, c.holders h = .start) ∧ c.history = []
  step := Cluster.step

end Model

def acquirer (last : Option H) : Event H → Option H
  | .acquired h => some h
  | _ => last

def lastAcquirer (history : List (Event H)) : Option H := history.foldl acquirer none

theorem lastAcquirer_snoc (history : List (Event H)) (e : Event H) :
    lastAcquirer (history ++ [e]) = acquirer (lastAcquirer history) e := by
  rw [lastAcquirer,List.foldl_append]
  rfl

theorem lastAcquirer_split {history : List (Event H)} {h : H} (hl : lastAcquirer history = some h) :
    ∃ us vs, history = us ++ .acquired h :: vs ∧ ∀ q, .acquired q ∉ vs := by
  induction history using List.reverseRecOn with
  | nil => cases hl
  | append_singleton history e ih =>
    rw [lastAcquirer_snoc] at hl
    by_cases he : ∃ q, e = .acquired q
    · obtain ⟨q,rfl⟩ := he
      cases hl
      exact ⟨history,[],rfl,fun _ => List.not_mem_nil⟩
    · have hlast : acquirer (lastAcquirer history) e = lastAcquirer history := by
        cases e with
        | acquired q => exact absurd ⟨q,rfl⟩ he
        | _ => rfl
      obtain ⟨us,vs,rfl,hvs⟩ := ih (hlast ▸ hl)
      refine ⟨us,vs ++ [e],by simp,?_⟩
      intro q hq
      rcases List.mem_append.mp hq with hq | hq
      · exact hvs q hq
      · exact he ⟨q,(List.mem_singleton.mp hq).symm⟩

def Justified (history : List (Event H)) : Event H → Prop
  | .acquired _ => True
  | .put h => lastAcquirer history = some h
  | .renewed h applied => history[applied]? = some (.put h)
  | .deleted h l => l.holderIdentity = h

def Owned (history : List (Event H)) : Prop :=
  ∀ xs e zs, history = xs ++ e :: zs → Justified xs e

theorem Owned.snoc {history : List (Event H)} {e : Event H} (h : Owned history) (he : Justified history e) :
    Owned (history ++ [e]) := by
  intro xs e' zs heq
  rcases List.eq_nil_or_concat zs with rfl | ⟨zs,z,rfl⟩
  · obtain ⟨rfl,hee⟩ := List.append_inj' heq rfl
    cases hee
    exact he
  · have heq' : history ++ [e] = (xs ++ e' :: zs) ++ [z] := by
      rw [heq,List.concat_eq_append,List.append_assoc,List.cons_append]
    exact h xs e' zs (List.append_inj' heq' rfl).1

theorem Owned.renewed {xs zs : List (Event H)} {h : H} {applied : ℕ}
    (ho : Owned (xs ++ .renewed h applied :: zs)) :
    ∃ us vs ws, xs = us ++ .acquired h :: vs ++ .put h :: ws ∧
      (us ++ .acquired h :: vs).length = applied ∧ ∀ q, .acquired q ∉ vs := by
  have hget : xs[applied]? = some (.put h) := ho xs _ zs rfl
  obtain ⟨hlt,hput⟩ := List.getElem?_eq_some_iff.mp hget
  have hxs : xs = xs.take applied ++ .put h :: xs.drop (applied + 1) := by
    rw [← hput,← List.drop_eq_getElem_cons hlt,List.take_append_drop]
  have hlast : lastAcquirer (xs.take applied) = some h :=
    ho _ (.put h) (xs.drop (applied + 1) ++ .renewed h applied :: zs) (by
      rw [← List.cons_append,← List.append_assoc,← hxs])
  obtain ⟨us,vs,htake,hvs⟩ := lastAcquirer_split hlast
  refine ⟨us,vs,xs.drop (applied + 1),htake ▸ hxs,?_,hvs⟩
  rw [← htake,List.length_take,min_eq_left hlt.le]

def Started (history : List (Event H)) : Prop := ∃ q, .acquired q ∈ history

def Call.Fits (server : Store (LeaseSpec H)) (history : List (Event H)) (h : H) : Call H → Prop
  | .read _ current => ∀ l, current = some l → server.Seen l
  | .write .acquire current _ => ∀ l, current = some l → server.Seen l
  | .write .renew current _ =>
    Started history ∧ ∀ l, current = some l → server.Seen l ∧ l.value.holderIdentity = h
  | .write .release current _ => ∀ l, current = some l → server.Seen l ∧ l.value.holderIdentity = h
  | .answer .acquire _ => Started history
  | .answer .renew applied => history[applied]? = some (.put h)
  | .answer .release _ => True

variable {server server' : Store (LeaseSpec H)} {history events : List (Event H)} {h : H}

theorem Started.append (hs : Started history) : Started (history ++ events) :=
  hs.imp fun _ hq => List.mem_append_left events hq

theorem Call.Fits.moved {k : Call H} (hk : k.Fits server history h)
    (hs : ∀ l, server.Seen l → server'.Seen l) : k.Fits server' (history ++ events) h := by
  cases k with
  | read m current => exact fun l hl => hs l (hk l hl)
  | write m current renewTime =>
    cases m with
    | acquire => exact fun l hl => hs l (hk l hl)
    | renew => exact ⟨hk.1.append,fun l hl => ⟨hs l (hk.2 l hl).1,(hk.2 l hl).2⟩⟩
    | release => exact fun l hl => ⟨hs l (hk l hl).1,(hk l hl).2⟩
  | answer m applied =>
    cases m with
    | acquire => exact Started.append hk
    | renew =>
      have hlt := (List.getElem?_eq_some_iff.mp hk).1
      exact (List.getElem?_append_left hlt).trans hk
    | release => trivial

structure Sound (c : Cluster H) : Prop where
  current : c.server.Current
  owner : ∀ o, c.server.object = some o → Started c.history →
    lastAcquirer c.history = some o.value.holderIdentity
  started : ∀ h, (c.holders h).held = true → Started c.history
  fits : ∀ h, ∀ k ∈ (c.holders h).calls, k.Fits c.server c.history h
  owned : Owned c.history

variable {c c' : Cluster H} {holder : Holder H} {call : ℕ} {k : Call H} {current : Option (Lease H)}

theorem Sound.moved (hc : Sound c) (hcurrent : server.Current) (hseen : ∀ l, c.server.Seen l → server.Seen l)
    (howner : ∀ o, server.object = some o → Started (c.history ++ events) →
      lastAcquirer (c.history ++ events) = some o.value.holderIdentity)
    (howned : Owned (c.history ++ events)) :
    Sound { c with server := server, history := c.history ++ events } where
  current := hcurrent
  owner := howner
  started q hq := (hc.started q hq).append
  fits q k hk := (hc.fits q k hk).moved hseen
  owned := howned

section Steps

theorem Sound.fits_call (hc : Sound c) (hk : (c.holders h).calls[call]? = some k) :
    k.Fits c.server c.history h :=
  hc.fits h k (List.mem_of_getElem? hk)

theorem Sound.fits_dropped (hc : Sound c) : ∀ k ∈ (c.dropped h call).calls, k.Fits c.server c.history h :=
  fun k hk => hc.fits h k (List.mem_of_mem_eraseIdx hk)

variable [DecidableEq H]

theorem Sound.setHolder (hc : Sound c) (hf : ∀ k ∈ holder.calls, k.Fits c.server c.history h)
    (hs : holder.held = true → Started c.history) : Sound (c.setHolder h holder) := by
  refine ⟨hc.current,hc.owner,?_,?_,hc.owned⟩
  · intro q hq
    rcases eq_or_ne q h with rfl | hne
    · rw [Cluster.setHolder_self] at hq
      exact hs hq
    · rw [Cluster.setHolder_other c holder hne] at hq
      exact hc.started q hq
  · intro q
    rcases eq_or_ne q h with rfl | hne
    · rw [Cluster.setHolder_self]
      exact hf
    · rw [Cluster.setHolder_other c holder hne]
      exact hc.fits q

variable (hc : Sound c)

include hc

theorem Sound.get (m : Method) : Sound (c.get h m) := by
  unfold Cluster.get
  dsimp only
  split
  · exact hc
  · refine hc.setHolder (List.forall_mem_append.mpr ⟨hc.fits h,?_⟩) (hc.started h)
    exact List.forall_mem_singleton.mpr fun l hl => hc.current.seen hl

theorem Sound.drop : Sound (c.setHolder h (c.dropped h call)) :=
  hc.setHolder hc.fits_dropped (hc.started h)

theorem Sound.next (hk : k.Fits c.server c.history h) :
    Sound (c.setHolder h { c.dropped h call with calls := (c.dropped h call).calls ++ [k] }) :=
  hc.setHolder (List.forall_mem_append.mpr ⟨hc.fits_dropped,List.forall_mem_singleton.mpr hk⟩) (hc.started h)

theorem Sound.reset (held : Bool) (hs : held = true → Started c.history) :
    Sound (c.setHolder h { c.dropped h call with held := held }) :=
  hc.setHolder hc.fits_dropped hs

theorem Sound.check {now renewTime : ℕ} (hs : c.check h call now renewTime = some c') : Sound c' := by
  unfold Cluster.check at hs
  split at hs
  · rename_i current hk
    cases hs
    unfold acquireCheck
    split
    · exact hc.next fun l hl => hc.fits_call hk l hl
    · exact hc.drop
  · rename_i current hk
    cases hs
    unfold renewCheck
    split
    · rename_i hcond
      refine hc.next ⟨hc.started h hcond.1,?_⟩
      rintro l rfl
      have hown := of_decide_eq_true hcond.2
      exact ⟨hc.fits_call hk l rfl,hown.1⟩
    · exact hc.drop
  · rename_i current hk
    cases hs
    unfold releaseCheck
    split
    · rename_i hcond
      refine hc.next ?_
      rintro l rfl
      exact ⟨hc.fits_call hk l rfl,of_decide_eq_true hcond⟩
    · exact hc.reset false (fun hf => by cases hf)
  · cases hs

theorem Sound.applied {e : Event H} {m : Method} (hcurrent : server.Current)
    (hseen : ∀ l, c.server.Seen l → server.Seen l)
    (howner : ∀ o, server.object = some o → Started (c.history ++ [e]) →
      lastAcquirer (c.history ++ [e]) = some o.value.holderIdentity)
    (hjust : Justified c.history e)
    (hanswer : (Call.answer m c.history.length).Fits server (c.history ++ [e]) h) :
    Sound { c.awaiting h call m with server := server, history := c.history ++ [e] } :=
  (hc.moved hcurrent hseen howner (hc.owned.snoc hjust)).next hanswer

theorem Sound.acquireSave {renewTime : ℕ}
    (hk : (Call.write .acquire current renewTime).Fits c.server c.history h) :
    Sound (c.acquireSave h call current renewTime) := by
  unfold Cluster.acquireSave
  split
  · exact hc.drop
  · rename_i server hwrite
    obtain ⟨_,hw⟩ := Store.write_written hk hwrite
    have hlast : lastAcquirer (c.history ++ [.acquired h]) = some h := lastAcquirer_snoc ..
    refine hc.applied hw.current (fun _ hl => hw.seen hl) ?_ trivial ?_
    · intro o ho _
      obtain ⟨uid,hobj⟩ := hw.object
      rw [hobj] at ho
      cases ho
      exact hlast
    · exact ⟨h,List.mem_append_right _ List.mem_cons_self⟩

theorem Sound.renewPut {l : Lease H} {renewTime : ℕ}
    (hk : (Call.write .renew (some l) renewTime).Fits c.server c.history h) :
    Sound (c.renewPut h call l renewTime) := by
  obtain ⟨hstarted,hl⟩ := hk
  obtain ⟨hseen,hholder⟩ := hl l rfl
  unfold Cluster.renewPut
  split
  · exact hc.drop
  · rename_i server hreplace
    obtain ⟨ho,hw⟩ := Store.replace_written hseen hreplace
    have hlast : lastAcquirer c.history = some h := hholder ▸ hc.owner l ho hstarted
    refine hc.applied hw.current (fun _ hl => hw.seen hl) ?_ hlast ?_
    · intro o ho' _
      obtain ⟨uid,hobj⟩ := hw.object
      rw [hobj] at ho'
      cases ho'
      rw [lastAcquirer_snoc]
      exact hlast.trans (congrArg some hholder.symm)
    · exact List.getElem?_concat_length

theorem Sound.releaseDelete {l : Lease H} {renewTime : ℕ}
    (hk : (Call.write .release (some l) renewTime).Fits c.server c.history h) :
    Sound (c.releaseDelete h call l) := by
  obtain ⟨hseen,hholder⟩ := hk l rfl
  unfold Cluster.releaseDelete
  split
  · exact hc.next trivial
  · rename_i server hremove
    obtain ⟨ho,rfl⟩ := Store.removeIf_removed hseen hremove
    have hevents : (c.server.object.map (fun o => Event.deleted h o.value)).toList =
        [.deleted h l.value] := by rw [ho]; rfl
    rw [hevents]
    refine hc.applied Store.remove_current (fun _ hl => hl.remove) ?_ hholder trivial
    intro o ho'
    cases ho'

theorem Sound.write (hs : c.write h call = some c') : Sound c' := by
  unfold Cluster.write at hs
  split at hs
  · cases hs
    exact hc.acquireSave (hc.fits_call ‹_›)
  · cases hs
    exact hc.renewPut (hc.fits_call ‹_›)
  · cases hs
    exact hc.releaseDelete (hc.fits_call ‹_›)
  · cases hs

theorem Sound.answer (hs : c.answer h call = some c') : Sound c' := by
  unfold Cluster.answer at hs
  split at hs
  · rename_i hk
    cases hs
    exact hc.reset true (fun _ => hc.fits_call hk)
  · rename_i applied hk
    cases hs
    refine hc.drop.moved hc.current (fun _ hl => hl) ?_ (hc.owned.snoc (hc.fits_call hk))
    rintro o ho ⟨q,hq⟩
    have hq' : Event.acquired q ∈ c.history := by
      rcases List.mem_append.mp hq with hq | hq
      · exact hq
      · cases List.mem_singleton.mp hq
    exact (lastAcquirer_snoc ..).trans (hc.owner o ho ⟨q,hq'⟩)
  · cases hs
    exact hc.reset false (fun hf => by cases hf)
  · cases hs

theorem Sound.step {a : Action H} (hs : c.step a = some c') : Sound c' := by
  cases a with
  | get h m =>
    cases hs
    exact hc.get m
  | check h call now renewTime => exact hc.check hs
  | write h call => exact hc.write hs
  | answer h call => exact hc.answer hs
  | fail h call =>
    cases hs
    exact hc.drop

end Steps

theorem initial_sound [DecidableEq H] (hi : (runners H).initial c) : Sound c := by
  obtain ⟨hcurrent,hholders,hhistory⟩ := hi
  refine ⟨hcurrent,?_,?_,?_,?_⟩
  · rintro o _ ⟨q,hq⟩
    rw [hhistory] at hq
    cases hq
  · intro h hh
    rw [hholders h] at hh
    cases hh
  · intro h k hk
    rw [hholders h] at hk
    cases hk
  · intro xs e zs heq
    rw [hhistory] at heq
    simp at heq

theorem renewal_proves_ownership [DecidableEq H] {c : Cluster H}
    (hr : (runners H).Reachable (fun _ _ => True) c) :
    (∀ xs h applied zs, c.history = xs ++ .renewed h applied :: zs →
      ∃ us vs ws, xs = us ++ .acquired h :: vs ++ .put h :: ws ∧
        (us ++ .acquired h :: vs).length = applied ∧ ∀ q, .acquired q ∉ vs) ∧
    (∀ h l, .deleted h l ∈ c.history → l.holderIdentity = h) := by
  have hc : Sound c := hr.invariant (fun _ => initial_sound) (fun _ _ _ hi _ hs => hi.step hs)
  refine ⟨fun xs h applied zs heq => Owned.renewed (heq ▸ hc.owned),?_⟩
  intro h l hl
  obtain ⟨xs,zs,heq⟩ := List.append_of_mem hl
  exact hc.owned xs (.deleted h l) zs heq

def freshCluster : Cluster Bool := ⟨⟨none,0⟩,fun _ => .start,[]⟩

theorem freshCluster_initial : (runners Bool).initial freshCluster :=
  ⟨fun _ ho => (Option.some_ne_none _ ho.symm).elim,fun _ => rfl,rfl⟩

def uninterrupted (h : Bool) (m : Method) (now : ℕ) : List (Action Bool) :=
  [.get h m,.check h 0 now now,.write h 0,.answer h 0]

def takeover : List (Action Bool) :=
  uninterrupted true .acquire 0 ++ [.get true .renew] ++ uninterrupted false .acquire 60000 ++
    [.check true 0 30000 30000,.write true 0,.get true .release,.check true 0 60001 60001] ++
    uninterrupted false .renew 60002 ++ uninterrupted false .release 60003

theorem renewal_proves_ownership_takeover : ∃ c, (runners Bool).run freshCluster takeover = some c ∧
    c.history = [.acquired true,.acquired false,.put false,.renewed false 2,.deleted false ⟨false,60,60002⟩] ∧
    ∃ us vs ws, [.acquired true,.acquired false,.put false] =
        us ++ Event.acquired false :: vs ++ .put false :: ws ∧
      (us ++ Event.acquired false :: vs).length = 2 ∧ ∀ q, .acquired q ∉ vs := by
  have hrun : ((runners Bool).run freshCluster takeover).any (fun c => c.history =
      [.acquired true,.acquired false,.put false,.renewed false 2,
        .deleted false ⟨false,60,60002⟩]) = true := by decide +kernel
  simp only [Option.any_eq_true,decide_eq_true_eq] at hrun
  obtain ⟨c,hc,hh⟩ := hrun
  have hr := System.Reachable.run (.initial freshCluster_initial) hc
  exact ⟨c,hc,hh,(renewal_proves_ownership hr).1 _ false 2 _ hh⟩

def lateAnswer : List (Action Bool) :=
  uninterrupted true .acquire 0 ++ [.get true .renew,.check true 0 1000 1000,.write true 0] ++
    uninterrupted false .acquire 61000 ++ [.answer true 0]

theorem renewal_after_takeover : ∃ c, (runners Bool).Reachable (fun _ _ => True) c ∧
    c.history = [.acquired true,.put true,.acquired false] ++ [.renewed true 1] ∧
    (c.holders false).held = true := by
  have hrun : ((runners Bool).run freshCluster lateAnswer).any (fun c => c.history =
      [.acquired true,.put true,.acquired false] ++ [.renewed true 1] ∧ (c.holders false).held) = true := by
    decide +kernel
  simp only [Option.any_eq_true,decide_eq_true_eq] at hrun
  obtain ⟨c,hc,hh⟩ := hrun
  exact ⟨c,System.Reachable.run (.initial freshCluster_initial) hc,hh⟩

end Jitsu.Leases.Runner
