import Jitsu.Leases.Sidecar

namespace Jitsu.Leases.Sidecar

open Jitsu.Transition Jitsu.Versioned

variable {P : Type}

def validity : ℕ := leaseDurationSeconds * second

def Acquire.existing : Acquire P → Option (Lease P)
  | .got _ _ existing => existing
  | .writing _ _ existing => existing
  | _ => none

def Renew.existing : Renew P → Option (Lease P)
  | .idle => none
  | .got existing => some existing
  | .writing existing _ => some existing

structure Informed (server : Store (LeaseSpec P)) (clock : ℕ) (p : P) (pod : Pod P) : Prop where
  acquiring : ∀ l, pod.acquire.existing = some l → server.Seen l
  stale : ∀ n now l, pod.acquire = .writing n now (some l) → leaseIsStale clock l.value = true
  renewing : ∀ l, pod.renew.existing = some l → server.Seen l ∧ l.value.holderIdentity = p

def Pod.Holding (time : ℕ) (pod : Pod P) : Prop := ∃ r, pod.renewed = some r ∧ time ≤ r + validity

structure Sound (skew : ℕ) (c : Cluster P) : Prop where
  current : c.server.Current
  owner : ∀ o, c.server.object = some o → o.value.leaseDurationSeconds = leaseDurationSeconds ∧
    ∃ r, o.value.renewTime = some r ∧ (c.pods o.value.holderIdentity).renewed = some r
  held : ∀ p, (c.pods p).Holding (c.clock + skew) →
    ∃ o, c.server.object = some o ∧ o.value.holderIdentity = p
  informed : ∀ p, Informed c.server (c.clock + skew) p (c.pods p)
  removed : ∀ e ∈ c.removed, e.2.holderIdentity = e.1

def Agreeing (skew : ℕ) (c : Cluster P) : Action P → Prop
  | .acquireDecide _ now => now ≤ c.clock + skew
  | _ => True

def Prompt (skew : ℕ) (c : Cluster P) : Action P → Prop
  | .delete p delivery => delivery ≠ .failed → (c.pods p).Holding (c.clock + skew)
  | _ => True

def Timely (skew : ℕ) (c : Cluster P) (a : Action P) : Prop := Agreeing skew c a ∧ Prompt skew c a

theorem leaseIsStale_mono {now later : ℕ} {l : LeaseSpec P} (hle : now ≤ later)
    (h : leaseIsStale now l = true) : leaseIsStale later l = true := by
  unfold leaseIsStale at h ⊢
  split
  · rfl
  · rename_i r hr
    rw [hr] at h
    dsimp only at h ⊢
    rw [decide_eq_true_eq] at h ⊢
    omega

theorem stale_expired {now r : ℕ} {l : LeaseSpec P} (h : leaseIsStale now l = true)
    (hd : l.leaseDurationSeconds = leaseDurationSeconds) (hr : l.renewTime = some r) : r + validity < now := by
  unfold leaseIsStale at h
  rw [hr,hd] at h
  simpa [leaseDurationSeconds,validity] using h

section informed

variable {p : P} {server server' : Store (LeaseSpec P)} {clock : ℕ} {pod : Pod P}

section

variable (h : Informed server clock p pod)

include h

theorem Informed.moved (hs : ∀ l, server.Seen l → server'.Seen l) :
    Informed server' clock p pod where
  acquiring l hl := hs l (h.acquiring l hl)
  stale := h.stale
  renewing l hl := ⟨hs l (h.renewing l hl).1,(h.renewing l hl).2⟩

theorem Informed.later {later : ℕ} (hle : clock ≤ later) :
    Informed server later p pod :=
  ⟨h.acquiring,fun n now l hl => leaseIsStale_mono hle (h.stale n now l hl),h.renewing⟩

theorem Informed.leave {stage : Acquire P} (hs : stage.existing = none) :
    Informed server clock p { pod with acquire := stage } where
  acquiring l hl := by
    rw [hs] at hl
    cases hl
  stale n now l hl := by
    have hl' : stage = .writing n now (some l) := hl
    rw [hl'] at hs
    cases hs
  renewing := h.renewing

theorem Informed.idle :
    Informed server clock p { pod with renew := .idle } :=
  ⟨h.acquiring,h.stale,nofun⟩

end

theorem nextAttempt_existing (n : ℕ) : (nextAttempt n : Acquire P).existing = none := by
  unfold nextAttempt
  split <;> rfl

theorem respond_ok {existing : Option (Lease P)} {spec : LeaseSpec P}
    (hs : ∀ l, existing = some l → server.Seen l) (h : respond server existing spec = .ok server') :
    server.object = existing ∧ Store.Written server server' spec := by
  unfold respond at h
  split at h
  · cases h
    exact Store.write_written hs ‹_›
  · split at h <;> cases h

end informed

theorem Sound.expired {skew : ℕ} {c : Cluster P} (h : Sound skew c) {l : Lease P}
    (ho : c.server.object = some l) (hs : leaseIsStale (c.clock + skew) l.value = true) {q : P}
    (hholding : (c.pods q).Holding (c.clock + skew)) : False := by
  obtain ⟨o,hobj,rfl⟩ := h.held q hholding
  obtain ⟨r,hq,hclock⟩ := hholding
  rw [ho] at hobj
  cases hobj
  obtain ⟨hd,r',hr',hren⟩ := h.owner l ho
  rw [hq] at hren
  cases hren
  have := stale_expired hs hd hr'
  omega

variable [DecidableEq P] {skew : ℕ} {c c' : Cluster P} {p : P}

theorem Sound.setPod (h : Sound skew c) {pod : Pod P} (hr : pod.renewed = (c.pods p).renewed)
    (hi : Informed c.server (c.clock + skew) p pod) : Sound skew (c.setPod p pod) := by
  have hren : ∀ q, ((c.setPod p pod).pods q).renewed = (c.pods q).renewed := by
    intro q
    rcases eq_or_ne q p with rfl | hne
    · rw [Cluster.setPod_self]
      exact hr
    · rw [Cluster.setPod_other c pod hne]
  refine ⟨h.current,?_,?_,?_,h.removed⟩
  · intro o ho
    rw [hren]
    exact h.owner o ho
  · rintro q ⟨r,hq,hclock⟩
    rw [hren] at hq
    exact h.held q ⟨r,hq,hclock⟩
  · intro q
    rcases eq_or_ne q p with rfl | hne
    · rw [Cluster.setPod_self]
      exact hi
    · rw [Cluster.setPod_other c pod hne]
      exact h.informed q

theorem Sound.written (h : Sound skew c) {server : Store (LeaseSpec P)} {spec : LeaseSpec P} {pod : Pod P}
    {t : ℕ} (hw : Store.Written c.server server spec) (hp : spec.holderIdentity = p)
    (hd : spec.leaseDurationSeconds = leaseDurationSeconds) (ht : spec.renewTime = some t)
    (hr : pod.renewed = some t) (hi : Informed c.server (c.clock + skew) p pod)
    (hsole : ∀ q, q ≠ p → (c.pods q).Holding (c.clock + skew) → False) :
    Sound skew { c.setPod p pod with server := server } := by
  obtain ⟨uid,ho⟩ := hw.object
  refine ⟨hw.current,?_,?_,?_,h.removed⟩
  · intro o ho'
    rw [ho] at ho'
    cases ho'
    refine ⟨hd,t,ht,?_⟩
    rw [hp,Cluster.setPod_self]
    exact hr
  · rintro q ⟨r,hq,hclock⟩
    rcases eq_or_ne q p with rfl | hne
    · exact ⟨_,ho,hp⟩
    · rw [Cluster.setPod_other c pod hne] at hq
      exact (hsole q hne ⟨r,hq,hclock⟩).elim
  · intro q
    have hseen : ∀ l, c.server.Seen l → server.Seen l := fun l hl => hw.seen hl
    rcases eq_or_ne q p with rfl | hne
    · rw [Cluster.setPod_self]
      exact hi.moved hseen
    · rw [Cluster.setPod_other c pod hne]
      exact (h.informed q).moved hseen

variable {delivery : Delivery}

section

variable (h : Sound skew c)

include h

theorem acquireWrite_sound (hs : c.acquireWrite p delivery = some c') :
    Sound skew c' := by
  have hinf := h.informed p
  unfold Cluster.acquireWrite at hs
  split at hs
  · rename_i n now existing hstage
    have hretry : Informed c.server (c.clock + skew) p { c.pods p with acquire := nextAttempt n } :=
      hinf.leave (nextAttempt_existing n)
    have hsuccess : Informed c.server (c.clock + skew) p (if delivery = .answered then
        { c.pods p with acquire := .acquired } else { c.pods p with acquire := nextAttempt n }) :=
      iteInduction (fun _ => hinf.leave rfl) (fun _ => hretry)
    have hrenewed : (if delivery = Delivery.answered then { c.pods p with acquire := .acquired }
        else { c.pods p with acquire := nextAttempt n }).renewed = (c.pods p).renewed := by
      split <;> rfl
    dsimp only at hs
    split at hs
    · cases hs
      exact h.setPod rfl hretry
    · split at hs <;> cases hs
      · exact h.setPod rfl hretry
      · exact h.setPod hrenewed hsuccess
      · rename_i server hok
        have hseen : ∀ l, existing = some l → c.server.Seen l := by
          rintro l rfl
          exact hinf.acquiring l (by rw [hstage]; rfl)
        obtain ⟨ho,hw⟩ := respond_ok hseen hok
        refine h.written hw rfl rfl rfl rfl ⟨hsuccess.acquiring,hsuccess.stale,hsuccess.renewing⟩ ?_
        intro q _ hholding
        cases existing with
        | none =>
          obtain ⟨o,hobj,_⟩ := h.held q hholding
          rw [ho] at hobj
          cases hobj
        | some l => exact h.expired ho (hinf.stale n now l hstage) hholding
  · cases hs

theorem renewWrite_sound (hs : c.renewWrite p delivery = some c') :
    Sound skew c' := by
  have hinf := h.informed p
  unfold Cluster.renewWrite at hs
  split at hs
  · rename_i existing t hstage
    have hidle := hinf.idle
    obtain ⟨hseen,hp⟩ := hinf.renewing existing (by rw [hstage]; rfl)
    dsimp only at hs
    split at hs
    · cases hs
      exact h.setPod rfl hidle
    · split at hs <;> cases hs
      · split
        · exact h.setPod rfl ⟨hidle.acquiring,hidle.stale,hidle.renewing⟩
        · exact h.setPod rfl hidle
      · exact h.setPod rfl hidle
      · rename_i server hok
        obtain ⟨ho,hw⟩ := respond_ok (by rintro l ⟨⟩; exact hseen) hok
        refine h.written hw hp (h.owner existing ho).1 rfl rfl
          ⟨hidle.acquiring,hidle.stale,hidle.renewing⟩ ?_
        intro q hne hholding
        obtain ⟨o,hobj,hq'⟩ := h.held q hholding
        rw [ho] at hobj
        cases hobj
        exact hne (hq'.symm.trans hp)
  · cases hs

theorem acquireStart_sound {now : ℕ} (hs : c.acquireStart p now = some c') : Sound skew c' := by
  unfold Cluster.acquireStart at hs
  split at hs <;> cases hs
  exact h.setPod rfl ((h.informed p).leave rfl)

theorem acquireGet_sound (hs : c.acquireGet p delivery = some c') :
    Sound skew c' := by
  have hinf := h.informed p
  unfold Cluster.acquireGet at hs
  split at hs <;> cases hs
  refine h.setPod rfl ?_
  split
  · exact ⟨fun l hl => h.current.seen hl,nofun,hinf.renewing⟩
  · exact hinf.leave (nextAttempt_existing _)

theorem acquireDecide_sound {now : ℕ} (hok : now ≤ c.clock + skew)
    (hs : c.acquireDecide p now = some c') : Sound skew c' := by
  have hinf := h.informed p
  unfold Cluster.acquireDecide at hs
  split at hs
  · rename_i n renewTime existing hstage
    cases hs
    refine h.setPod rfl ?_
    split
    · rename_i hall
      refine ⟨fun l hl => hinf.acquiring l (by rw [hstage]; exact hl),?_,hinf.renewing⟩
      rintro _ _ l ⟨⟩
      exact leaseIsStale_mono hok hall
    · exact hinf.leave (nextAttempt_existing n)
  · cases hs

theorem renewGet_sound (hs : c.renewGet p delivery = some c') :
    Sound skew c' := by
  have hinf := h.informed p
  have hlost : Sound skew (c.setPod p { c.pods p with leaseLost := true }) :=
    h.setPod rfl ⟨hinf.acquiring,hinf.stale,hinf.renewing⟩
  unfold Cluster.renewGet at hs
  dsimp only at hs
  split at hs
  · split at hs
    · cases hs
      exact h
    · split at hs <;> cases hs
      · exact hlost
      · rename_i existing ho
        split
        · rename_i hp
          refine h.setPod rfl ⟨hinf.acquiring,hinf.stale,?_⟩
          rintro l ⟨⟩
          exact ⟨h.current.seen ho,hp⟩
        · exact hlost
  · cases hs

theorem renewPrepare_sound {now : ℕ} (hs : c.renewPrepare p now = some c') : Sound skew c' := by
  have hinf := h.informed p
  unfold Cluster.renewPrepare at hs
  split at hs
  · rename_i existing hstage
    cases hs
    refine h.setPod rfl ⟨hinf.acquiring,hinf.stale,?_⟩
    rintro l ⟨⟩
    exact hinf.renewing existing (by rw [hstage]; rfl)
  · cases hs

theorem release_sound (hs : c.release p = some c') : Sound skew c' := by
  have hinf := h.informed p
  unfold Cluster.release at hs
  dsimp only at hs
  split at hs <;> cases hs
  split
  · exact h.setPod rfl ⟨hinf.acquiring,hinf.stale,hinf.renewing⟩
  · exact h

theorem delete_sound
    (hok : delivery ≠ .failed → (c.pods p).Holding (c.clock + skew))
    (hs : c.delete p delivery = some c') : Sound skew c' := by
  have hinf := h.informed p
  unfold Cluster.delete at hs
  dsimp only at hs
  split at hs
  · split at hs
    · cases hs
      exact h.setPod rfl ⟨hinf.acquiring,hinf.stale,hinf.renewing⟩
    · rename_i hdelivered
      cases hs
      obtain ⟨o,ho,hp⟩ := h.held p (hok hdelivered)
      refine ⟨Store.remove_current,nofun,?_,?_,?_⟩
      · rintro q ⟨t,hq,ht⟩
        exfalso
        rcases eq_or_ne q p with rfl | hne
        · change ((c.setPod q _).pods q).renewed = some t at hq
          rw [Cluster.setPod_self] at hq
          cases hq
        · change ((c.setPod p _).pods q).renewed = some t at hq
          rw [Cluster.setPod_other c _ hne] at hq
          obtain ⟨o',ho',hq'⟩ := h.held q ⟨t,hq,ht⟩
          rw [ho] at ho'
          cases ho'
          exact hne (hq'.symm.trans hp)
      · intro q
        change Informed c.server.remove (c.clock + skew) q ((c.setPod p _).pods q)
        rcases eq_or_ne q p with rfl | hne
        · rw [Cluster.setPod_self]
          have hmoved := hinf.moved (fun _ hl => hl.remove)
          exact ⟨hmoved.acquiring,hmoved.stale,hmoved.renewing⟩
        · rw [Cluster.setPod_other c _ hne]
          exact (h.informed q).moved (fun _ hl => hl.remove)
      · intro e he
        rcases List.mem_append.mp he with he | he
        · exact h.removed e he
        · rw [ho] at he
          obtain rfl := List.mem_singleton.mp he
          exact hp
  · cases hs

theorem step_sound {a : Action P} (hok : Timely skew c a) (hs : c.step a = some c') : Sound skew c' := by
  cases a with
  | wait microseconds =>
    cases hs
    have hle : c.clock + skew ≤ c.clock + microseconds + skew := by omega
    exact ⟨h.current,h.owner,fun p ⟨r,hr,hclock⟩ => h.held p ⟨r,hr,hle.trans hclock⟩,
      fun p => (h.informed p).later hle,h.removed⟩
  | acquireStart p now => exact acquireStart_sound h hs
  | acquireGet p delivery => exact acquireGet_sound h hs
  | acquireDecide p now => exact acquireDecide_sound h hok.1 hs
  | acquireWrite p delivery => exact acquireWrite_sound h hs
  | renewGet p delivery => exact renewGet_sound h hs
  | renewPrepare p now => exact renewPrepare_sound h hs
  | renewWrite p delivery => exact renewWrite_sound h hs
  | signal p => exact release_sound h hs
  | exit p => exact release_sound h hs
  | delete p delivery => exact delete_sound h hok.2 hs

end

theorem initial_sound (h : (sidecars P).initial c) : Sound skew c := by
  obtain rfl := h
  exact ⟨nofun,nofun,nofun,fun _ => ⟨nofun,nofun,nofun⟩,nofun⟩

theorem Sound.reached (h : (sidecars P).Reachable (Timely skew) c) : Sound skew c :=
  h.invariant (fun _ => initial_sound) fun _ _ _ hi => step_sound hi

theorem release_removes_own_lease {skew : ℕ} {c : Cluster P} (h : (sidecars P).Reachable (Timely skew) c)
    {p : P} {l : LeaseSpec P} (hl : (p,l) ∈ c.removed) : l.holderIdentity = p :=
  (Sound.reached h).removed (p,l) hl

theorem one_sidecar_holds {skew : ℕ} {c : Cluster P} (h : (sidecars P).Reachable (Timely skew) c) {p q : P}
    (hp : (c.pods p).Holding (c.clock + skew)) (hq : (c.pods q).Holding (c.clock + skew)) : p = q := by
  have hs := Sound.reached h
  obtain ⟨o,ho,rfl⟩ := hs.held p hp
  obtain ⟨o',ho',rfl⟩ := hs.held q hq
  rw [Option.some.inj (ho.symm.trans ho')]

instance {pod : Pod P} {time : ℕ} : Decidable (pod.Holding time) :=
  decidable_of_iff (∃ r ∈ pod.renewed, time ≤ r + validity) (by simp [Pod.Holding,Option.mem_def])

instance {a : Action P} : Decidable (Agreeing skew c a) := by
  cases a <;> dsimp only [Agreeing] <;> infer_instance

instance {a : Action P} : Decidable (Prompt skew c a) := by
  cases a <;> dsimp only [Prompt] <;> infer_instance

instance {a : Action P} : Decidable (Timely skew c a) := instDecidableAnd

def freshCluster : Cluster Bool := ⟨⟨none,0⟩,0,fun _ => .start,[]⟩

def acquireOnce (p : Bool) (now : ℕ) : List (Action Bool) :=
  [.acquireStart p now,.acquireGet p .answered,.acquireDecide p now,.acquireWrite p .answered]

def handover : List (Action Bool) :=
  acquireOnce false 0 ++ [.wait (30 * second),.acquireStart true (35 * second),.acquireGet true .answered,
    .acquireDecide true (35 * second),.exit false,.delete false .answered] ++
    acquireOnce true (35 * second) ++ [.signal true,.delete true .answered]

theorem release_removes_own_lease_handover : ∃ c,
    ((sidecars Bool).guard (Timely (5 * second))).run freshCluster handover = some c ∧
    c.removed = [(false,⟨false,60,some 0⟩),(true,⟨true,60,some (35 * second)⟩)] ∧
    ∀ e ∈ c.removed, e.2.holderIdentity = e.1 := by
  have hrun : (((sidecars Bool).guard (Timely (5 * second))).run freshCluster handover).any (fun c =>
      c.removed = [(false,⟨false,60,some 0⟩),(true,⟨true,60,some (35 * second)⟩)]) = true := by
    decide +kernel
  simp only [Option.any_eq_true,decide_eq_true_eq] at hrun
  obtain ⟨c,hc,hr⟩ := hrun
  exact ⟨c,hc,hr,fun e he => release_removes_own_lease (System.Reachable.guarded (.initial rfl) hc) he⟩

def takeover : List (Action Bool) :=
  acquireOnce false 0 ++ .wait (61 * second) :: acquireOnce true (61 * second)

theorem one_sidecar_holds_takeover : ∃ c,
    ((sidecars Bool).guard (Timely second)).run freshCluster takeover = some c ∧
    (c.pods false).renewed = some 0 ∧ (c.pods true).Holding (c.clock + second) ∧
    ∀ q, (c.pods q).Holding (c.clock + second) → true = q := by
  have hrun : (((sidecars Bool).guard (Timely second)).run freshCluster takeover).any (fun c =>
      (c.pods false).renewed = some 0 ∧ (c.pods true).Holding (c.clock + second)) = true := by decide +kernel
  simp only [Option.any_eq_true,decide_eq_true_eq] at hrun
  obtain ⟨c,hc,hr,hholds⟩ := hrun
  have hreach := System.Reachable.guarded (.initial rfl) hc
  exact ⟨c,hc,hr,hholds,fun q hq => one_sidecar_holds hreach hholds hq⟩

def Stolen (c : Cluster Bool) : Prop := ∃ l, (false,l) ∈ c.removed ∧ l.holderIdentity ≠ false

theorem removal_stolen {ok : Cluster Bool → Action Bool → Prop} [∀ c a, Decidable (ok c a)]
    (as : List (Action Bool)) (h : (((sidecars Bool).guard ok).run freshCluster as).any (fun c =>
      c.removed.any fun e => e.1 = false ∧ e.2.holderIdentity ≠ false) = true) :
    ∃ c, (sidecars Bool).Reachable ok c ∧ Stolen c := by
  simp only [Option.any_eq_true,List.any_eq_true,decide_eq_true_eq] at h
  obtain ⟨c,hc,⟨_,l⟩,hl,rfl,hne⟩ := h
  exact ⟨c,System.Reachable.guarded (.initial rfl) hc,l,hl,hne⟩

theorem late_release_removes_successor :
    (∃ c, (sidecars Bool).Reachable (Agreeing 0) c ∧ Stolen c) ∧
    ∃ c, (sidecars Bool).Reachable (Prompt 0) c ∧ Stolen c :=
  ⟨removal_stolen (takeover ++ [.exit false,.delete false .answered]) (by decide +kernel),
    removal_stolen (acquireOnce false 0 ++ acquireOnce true (61 * second) ++
      [.exit false,.delete false .answered]) (by decide +kernel)⟩

end Jitsu.Leases.Sidecar
