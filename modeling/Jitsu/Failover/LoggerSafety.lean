import Jitsu.Failover.Located
import Jitsu.Lib.Transition

namespace Jitsu.Failover

open Transition

structure Sound (copies : Bool) (s : Logger) : Prop where
  clock : s.current ≤ s.now
  clean : ∀ t, ∀ p ∈ s.logged t, newline ∉ p
  waiting : ∀ p ∈ s.waiting, newline ∉ p
  beyond : ∀ t, s.current < t → s.fs t = .bare ∧ s.logged t = []
  kept : ∀ t, s.current ≤ t → s.removed t = false
  held : ∀ t, Held copies (s.removed t) (s.fs t) (s.logged t)
  active : s.isOpen = true → ∃ f, s.fs s.current = .only .tmp f ∧ f.content = encoded (s.logged s.current) ∧
    s.currentSize = f.content.length
  unstored : ∀ basePath, s.fs s.current (.stored basePath) = none
  sized : s.currentSize = 0 → s.logged s.current = []
  jobs : ∀ k t phase, s.jobs k = some ⟨t,phase⟩ →
    k < s.spawned ∧ t < s.current ∧ Working (s.fs t) (s.logged t) phase
  alone : ∀ k k' t phase phase', s.jobs k = some ⟨t,phase⟩ → s.jobs k' = some ⟨t,phase'⟩ → k = k'
  objects : ∀ folder t f, s.objects folder t = some f →
    copies = true ∧ t < s.current ∧ f.content = encoded (s.logged t)
  quiet : s.closed = true → s.waiting = []
  closing : ∀ t, s.closing = some (t,0) → s.closed = true ∧ t = s.current ∧ s.currentSize = 0

def Careful (s : Logger) : Action → Prop
  | .call payload => s.closed = false ∧ newline ∉ payload
  | .write _ (.failed residue) => residue = []
  | .rotate .rotated | .closeFinish .rotated => s.now ≠ s.current
  | .unlink _ success => success = true
  | .closeBegin => s.waiting = []
  | _ => True

def Logger.uploads (s : Logger) (k : ℕ) : Bool :=
  match s.jobs k with
  | some ⟨_,.storing _ (.s3 _ :: _)⟩ => true
  | _ => false

def Moves (s : Logger) : Action → Prop
  | .compress _ outcome => outcome = .failed none
  | .store k success _ => success = true → s.uploads k = false
  | _ => True

def Single (s : Logger) (a : Action) : Prop := Careful s a ∧ Moves s a

namespace Sound

variable {copies : Bool} {s : Logger} {k : ℕ}

theorem past (h : Sound copies s) {t : ℕ} (ht : t < s.current) {row : Row} {gone : Bool} {j : ℕ → Option Job}
    (hheld : Held copies gone row (s.logged t))
    (hjobs : ∀ k t' phase, j k = some ⟨t',phase⟩ → t' = t ∧ k < s.spawned ∧ Working row (s.logged t) phase ∨
      t' ≠ t ∧ s.jobs k = some ⟨t',phase⟩)
    (halone : ∀ k k' t phase phase', j k = some ⟨t,phase⟩ → j k' = some ⟨t,phase'⟩ → k = k') :
    Sound copies { s with
      fs := Function.update s.fs t row
      removed := Function.update s.removed t gone
      jobs := j } := by
  have hrow {t' : ℕ} (htt : t' ≠ t) : Function.update s.fs t row t' = s.fs t' := Function.update_of_ne htt ..
  refine
    { h with
      beyond := fun t' ht' => ⟨(hrow (ht.trans ht').ne').trans (h.beyond t' ht').1,(h.beyond t' ht').2⟩
      kept := fun t' ht' => (Function.update_of_ne (ht.trans_le ht').ne' ..).trans (h.kept t' ht')
      held := fun t' => ?_
      active := fun ho => (h.active ho).imp fun f hf => ⟨(hrow ht.ne').trans hf.1,hf.2⟩
      unstored := fun basePath => (congrFun (hrow ht.ne') _).trans (h.unstored basePath)
      jobs := fun k t' phase hk => ?_
      alone := halone }
  · change Held copies (Function.update s.removed t gone t') (Function.update s.fs t row t') (s.logged t')
    by_cases htt : t' = t
    · subst htt
      rw [Function.update_self,Function.update_self]
      exact hheld
    · rw [hrow htt,Function.update_of_ne htt]
      exact h.held t'
  · change _ ∧ _ ∧ Working (Function.update s.fs t row t') _ _
    rcases hjobs k t' phase hk with ⟨rfl,hlt,hw⟩ | ⟨htt,hk⟩
    · rw [Function.update_self]
      exact ⟨hlt,ht,hw⟩
    · rw [hrow htt]
      exact h.jobs k t' phase hk

theorem work (h : Sound copies s) {t : ℕ} {phase : Phase} (hk : s.jobs k = some ⟨t,phase⟩) {row : Row}
    (next : Option Phase) (hheld : Held copies (s.removed t) row (s.logged t))
    (hnext : ∀ phase', next = some phase' → Working row (s.logged t) phase') :
    Sound copies { s with
      fs := Function.update s.fs t row
      jobs := Function.update s.jobs k (next.map (⟨t,·⟩)) } := by
  obtain ⟨hlt,ht,-⟩ := h.jobs k t phase hk
  have hother {k' t' : ℕ} {phase' : Phase}
      (hj : Function.update s.jobs k (next.map (⟨t,·⟩)) k' = some ⟨t',phase'⟩) :
      k' = k ∧ t' = t ∧ next = some phase' ∨ t' ≠ t ∧ s.jobs k' = some ⟨t',phase'⟩ := by
    by_cases hkk : k' = k
    · subst hkk
      rw [Function.update_self,Option.map_eq_some_iff] at hj
      obtain ⟨_,hn,hj⟩ := hj
      cases hj
      exact .inl ⟨rfl,rfl,hn⟩
    · rw [Function.update_of_ne hkk] at hj
      refine .inr ⟨?_,hj⟩
      rintro rfl
      exact hkk (h.alone k' k t' phase' phase hj hk)
  have hw := h.past ht hheld (j := Function.update s.jobs k (next.map (⟨t,·⟩))) ?_ ?_
  · rwa [Function.update_eq_self] at hw
  · intro k' t' phase' hj
    rcases hother hj with ⟨rfl,rfl,hn⟩ | hj
    · exact .inl ⟨rfl,hlt,hnext phase' hn⟩
    · exact .inr hj
  · intro k₁ k₂ t' phase₁ phase₂ h₁ h₂
    rcases hother h₁ with ⟨rfl,rfl,-⟩ | ⟨hne,hj₁⟩ <;> rcases hother h₂ with ⟨rfl,h₂,-⟩ | ⟨hne',hj₂⟩
    · rfl
    · exact absurd rfl hne'
    · exact absurd h₂ hne
    · exact h.alone k₁ k₂ t' phase₁ phase₂ hj₁ hj₂

theorem workOn (h : Sound copies s) {t : ℕ} {phase : Phase} (hk : s.jobs k = some ⟨t,phase⟩)
    (next : Option Phase)
    (hnext : ∀ phase', next = some phase' → Working (s.fs t) (s.logged t) phase') :
    Sound copies (s.setJob k (next.map (⟨t,·⟩))) := by
  have hw := h.work hk next (h.held t) hnext
  rw [Function.update_eq_self] at hw
  exact hw

variable {s' : Logger}

theorem compressFile (h : Sound copies s) {outcome : CompressOutcome}
    (hok : copies = false → outcome = .failed none) (hs : s.compressFile k outcome = some s') :
    Sound copies s' := by
  unfold Logger.compressFile at hs
  split at hs
  · next t hk =>
    cases (h.jobs k t _ hk).2.2 with
    | @rotated f hrow hcontent =>
      have hsome : s.fs t .rotating = some f := by rw [hrow,Row.only_self]
      have hheld (hne : outcome ≠ .failed none) (g : File) :
          Held copies (s.removed t) (Function.update (s.fs t) .compressed (some g)) (s.logged t) := by
        refine (h.held t).change hsome ?_
        rw [hrow]
        exact .copying (by simpa using mt hok hne) g hcontent
      rw [hsome] at hs
      cases outcome with
      | done =>
        cases hs
        refine h.work hk (some .copied) (hheld (by simp) _) ?_
        rintro _ ⟨⟩
        exact .copied (f := f) (g := ⟨f.content,s.now⟩) (by rw [hrow]; rfl) hcontent
      | failed residue =>
        cases residue with
        | none =>
          cases hs
          exact h.workOn hk none (by simp)
        | some residue =>
          cases hs
          exact h.work hk none (hheld (by simp) _) (by simp)
  · cases hs

theorem unlink (h : Sound copies s) (cfg : Config) (hs : s.unlink cfg k true = some s') :
    Sound copies s' := by
  unfold Logger.unlink at hs
  split at hs
  · next t hk =>
    cases (h.jobs k t _ hk).2.2 with
    | @copied f g hrow hcontent =>
      have hafter : Function.update (s.fs t) .rotating none = Row.only .compressed g := by
        rw [hrow,Row.copying_unlink]
      have hsome : s.fs t .compressed = some g := by rw [hrow,Row.copying,Function.update_self]
      cases hs
      refine h.work hk (some (.storing .compressed cfg.destinations)) ?_ ?_
      · rw [hafter]
        exact (h.held t).change hsome (.one .compressed hcontent)
      · rintro _ ⟨⟩
        rw [hafter]
        refine .storing (fun f hf => ?_) (by simp)
        rw [Row.only_self] at hf
        cases hf
        exact ⟨rfl,hcontent⟩
  · cases hs

theorem removeStored (h : Sound copies s) (basePath : String) (t : ℕ) :
    Sound copies (s.removeStored basePath t) := by
  unfold Logger.removeStored
  split
  · next hsome =>
    obtain ⟨f,hf⟩ := Option.isSome_iff_exists.mp hsome
    have hlt : t < s.current := by
      by_contra hle
      rcases (not_lt.mp hle).lt_or_eq with hlt | rfl
      · rw [(h.beyond t hlt).1] at hf
        cases hf
      · rw [h.unstored basePath] at hf
        cases hf
    refine h.past hlt ((h.held t).removeStored hf) (fun k t' phase hk => ?_) h.alone
    by_cases htt : t' = t
    · subst htt
      obtain ⟨hspawn,-,hw⟩ := h.jobs k t' phase hk
      exact .inl ⟨rfl,hspawn,hw.removeStored hf⟩
    · exact .inr ⟨htt,hk⟩
  · exact h

theorem cleanupOldFiles (h : Sound copies s) {basePath : String} {maxOldFiles : ℕ} {oldest : List ℕ}
    (hs : s.cleanupOldFiles basePath maxOldFiles oldest = some s') : Sound copies s' := by
  obtain ⟨-,hs⟩ := Option.ite_none_right_eq_some.mp hs
  cases hs
  clear * - h
  induction oldest generalizing s with
  | nil => exact h
  | cons t oldest ih => exact ih (h.removeStored basePath t)

variable {f : File} (h : Sound copies s)

include h

theorem putObject (hcopies : copies = true) {folder : String} {t : ℕ} (ht : t < s.current)
    (hf : f.content = encoded (s.logged t)) : Sound copies (s.putObject folder t f) := by
  refine { h with objects := ?_ }
  intro folder' t' f' hf'
  change Function.update s.objects folder (Function.update (s.objects folder) t (some f)) folder' t' = _ at hf'
  by_cases hfolder : folder' = folder
  · subst hfolder
    rw [Function.update_self] at hf'
    by_cases htt : t' = t
    · subst htt
      rw [Function.update_self] at hf'
      cases hf'
      exact ⟨hcopies,ht,hf⟩
    · rw [Function.update_of_ne htt] at hf'
      exact h.objects folder' t' f' hf'
  · rw [Function.update_of_ne hfolder] at hf'
    exact h.objects folder' t' f' hf'

theorem store {success : Bool} {oldest : List ℕ}
    (hok : copies = false → success = true → s.uploads k = false) (hs : s.store k success oldest = some s') :
    Sound copies s' := by
  unfold Logger.store at hs
  split at hs
  · next t finalPath d rest hk =>
    obtain ⟨-,ht,hw⟩ := h.jobs k t _ hk
    cases hw with
    | storing hrow hne =>
      have hnext : Sound copies (s.setJob k (some ⟨t,.storing finalPath rest⟩)) := by
        refine h.workOn hk (some (.storing finalPath rest)) ?_
        rintro _ ⟨⟩
        exact .storing hrow hne
      dsimp only at hs
      split at hs
      · cases hs
        exact hnext
      · next f hf =>
        obtain ⟨honly,hcontent⟩ := hrow f hf
        split at hs
        · cases hs
          exact hnext
        · next hsuccess =>
          split at hs
          · next basePath maxOldFiles =>
            refine Sound.cleanupOldFiles ?_ hs
            have hrename : (s.fs t).rename finalPath (.stored basePath) = Row.only (.stored basePath) f := by
              rw [honly,Row.rename_only]
            refine h.work hk (some (.storing finalPath rest)) ?_ ?_
            · change Held copies _ ((s.fs t).rename finalPath (.stored basePath)) _
              rw [hrename]
              exact (h.held t).change hf (.one _ hcontent)
            · rintro _ ⟨⟩
              change Working ((s.fs t).rename finalPath (.stored basePath)) _ _
              rw [hrename]
              refine .storing (fun g hg => ?_) hne
              rw [Row.only_ne f (hne basePath)] at hg
              cases hg
          · cases hs
            refine hnext.putObject ?_ ht hcontent
            by_contra hcopies
            have hup := hok (by simpa using hcopies) (by simpa using hsuccess)
            rw [Logger.uploads,hk] at hup
            cases hup
  · cases hs

theorem rewrite (hclosed : s.closed = false)
    {ls : List Payload} {size : ℕ} {waiting : List Payload} (hcontent : f.content = encoded ls)
    (hsize : size = f.content.length) (hclean : ∀ p ∈ ls, newline ∉ p) (hwaiting : waiting ⊆ s.waiting) :
    Sound copies { s with
      fs := Function.update s.fs s.current (.only .tmp f)
      logged := Function.update s.logged s.current ls
      currentSize := size
      waiting := waiting } := by
  have hrow {t : ℕ} (ht : t ≠ s.current) : Function.update s.fs s.current (Row.only .tmp f) t = s.fs t :=
    Function.update_of_ne ht ..
  have hlog {t : ℕ} (ht : t ≠ s.current) : Function.update s.logged s.current ls t = s.logged t :=
    Function.update_of_ne ht ..
  refine
    { h with
      clean := fun t => ?_
      waiting := fun p hp => h.waiting p (hwaiting hp)
      beyond := fun t ht => ?_
      held := fun t => ?_
      active := fun _ => ⟨f,Function.update_self ..,by simpa using hcontent,hsize⟩
      unstored := fun basePath => ?_
      sized := fun hz => ?_
      jobs := fun k t phase hk => ?_
      objects := fun folder t g hg => ?_
      quiet := fun hc => absurd hc (by simp [hclosed])
      closing := fun t ht => absurd (h.closing t ht).1 (by simp [hclosed]) }
  · change ∀ p ∈ Function.update s.logged s.current ls t, _
    by_cases ht : t = s.current
    · rw [ht,Function.update_self]
      exact hclean
    · rw [hlog ht]
      exact h.clean t
  · exact ⟨(hrow ht.ne').trans (h.beyond t ht).1,(hlog ht.ne').trans (h.beyond t ht).2⟩
  · change Held copies _ (Function.update s.fs s.current (Row.only .tmp f) t)
      (Function.update s.logged s.current ls t)
    by_cases ht : t = s.current
    · rw [ht,Function.update_self,Function.update_self,h.kept s.current le_rfl]
      exact .one .tmp hcontent
    · rw [hrow ht,hlog ht]
      exact h.held t
  · change Function.update s.fs s.current (Row.only .tmp f) s.current _ = none
    rw [Function.update_self]
    exact Row.only_ne f (by simp)
  · change Function.update s.logged s.current ls s.current = []
    rw [Function.update_self]
    have hz : size = 0 := hz
    exact encoded_eq_nil (hcontent ▸ List.eq_nil_of_length_eq_zero (hsize ▸ hz))
  · obtain ⟨hspawn,ht,hw⟩ := h.jobs k t phase hk
    refine ⟨hspawn,ht,?_⟩
    change Working (Function.update s.fs s.current (Row.only .tmp f) t)
      (Function.update s.logged s.current ls t) _
    rw [hrow ht.ne,hlog ht.ne]
    exact hw
  · obtain ⟨hcopies,ht,hc⟩ := h.objects folder t g hg
    exact ⟨hcopies,ht,hc.trans (congrArg encoded (hlog ht.ne).symm)⟩

theorem shut {row : Row} (hheld : Held copies false row (s.logged s.current))
    (hstored : ∀ basePath, row (.stored basePath) = none) :
    Sound copies { s with fs := Function.update s.fs s.current row, isOpen := false } := by
  have hrow {t : ℕ} (ht : t ≠ s.current) : Function.update s.fs s.current row t = s.fs t :=
    Function.update_of_ne ht ..
  refine
    { h with
      beyond := fun t ht => ⟨(hrow ht.ne').trans (h.beyond t ht).1,(h.beyond t ht).2⟩
      held := fun t => ?_
      active := fun ho => absurd ho (by simp)
      unstored := fun basePath => ?_
      jobs := fun k t phase hk => ?_ }
  · change Held copies _ (Function.update s.fs s.current row t) _
    by_cases ht : t = s.current
    · rw [ht,Function.update_self,h.kept s.current le_rfl]
      exact hheld
    · rw [hrow ht]
      exact h.held t
  · change Function.update s.fs s.current row s.current _ = none
    rw [Function.update_self]
    exact hstored basePath
  · obtain ⟨hspawn,ht,hw⟩ := h.jobs k t phase hk
    refine ⟨hspawn,ht,?_⟩
    change Working (Function.update s.fs s.current row t) _ _
    rw [hrow ht.ne]
    exact hw

theorem appendBytes_eq (hopen : s.isOpen = true) (bytes : List UInt8) :
    ∃ f, f.content = encoded (s.logged s.current) ++ bytes ∧
      s.currentSize + bytes.length = f.content.length ∧
      s.appendBytes bytes = { s with fs := Function.update s.fs s.current (.only .tmp f) } := by
  obtain ⟨f,hrow,hcontent,hsize⟩ := h.active hopen
  refine ⟨⟨f.content ++ bytes,s.now⟩,by rw [hcontent],by rw [List.length_append,hsize],?_⟩
  rw [Logger.appendBytes,Logger.setFile,hrow,Row.only_self,Row.only,Function.update_idem]
  rfl

theorem logPayload {payload : Payload} {outcome : WriteOutcome}
    (hok : Careful s (.write payload outcome)) (hs : s.logPayload payload outcome = some s') :
    Sound copies s' := by
  have hshut : Sound copies { s with waiting := s.waiting.erase payload } :=
    { h with
      waiting := fun p hp => h.waiting p (List.mem_of_mem_erase hp)
      quiet := fun hc => by rw [h.quiet hc]; rfl }
  have hopened (hmem : payload ∈ s.waiting) : s.closed = false := by
    by_contra hc
    rw [h.quiet (by simpa using hc)] at hmem
    cases hmem
  cases outcome with
  | written =>
    obtain ⟨hmem,hs⟩ := Option.ite_none_left_eq_some.mp hs
    rw [not_not] at hmem
    split at hs
    · cases hs
      exact hshut
    · next hopen =>
      have hopen : s.isOpen = true := by simpa using hopen
      obtain ⟨f,hcontent,hsize,happend⟩ := h.appendBytes_eq hopen (payload ++ [newline])
      rw [happend] at hs
      cases hs
      refine h.rewrite (hopened hmem) ?_ ?_ ?_ List.erase_subset
      · rw [hcontent,encoded_append]
      · rw [← hsize,List.length_append]
        rfl
      · intro p hp
        rcases List.mem_append.mp hp with hp | hp
        · exact h.clean s.current p hp
        · exact List.mem_singleton.mp hp ▸ h.waiting payload hmem
  | failed residue =>
    cases hok
    obtain ⟨hmem,hs⟩ := Option.ite_none_left_eq_some.mp hs
    rw [not_or,not_not] at hmem
    split at hs
    · cases hs
      exact hshut
    · next hopen =>
      have hopen : s.isOpen = true := by simpa using hopen
      obtain ⟨f,hcontent,hsize,happend⟩ := h.appendBytes_eq hopen []
      rw [happend] at hs
      cases hs
      have hw := h.rewrite (hopened hmem.1) (hcontent.trans (List.append_nil _)) hsize
        (h.clean s.current) (List.erase_subset : s.waiting.erase payload ⊆ s.waiting)
      rw [Function.update_eq_self] at hw
      exact hw

theorem rotated (cfg : Config) (hrow : s.fs s.current = .only .tmp f)
    (hcontent : f.content = encoded (s.logged s.current)) (hclosing : s.currentSize ≠ 0)
    (hnow : s.now ≠ s.current) :
    Sound copies (((s.renameIn s.current .tmp .rotating).openNewFile).spawn cfg s.current) := by
  have hlt : s.current < s.now := lt_of_le_of_ne h.clock hnow.symm
  set r := ((s.renameIn s.current .tmp .rotating).openNewFile).spawn cfg s.current
  have hrename : (s.renameIn s.current .tmp .rotating).fs =
      Function.update s.fs s.current (.only .rotating f) := by
    rw [Logger.renameIn,hrow,Row.rename_only]
  have hfs : r.fs = Function.update (Function.update s.fs s.current (.only .rotating f)) s.now
    (.only .tmp ⟨[],s.now⟩) := by
    change Function.update (s.renameIn s.current .tmp .rotating).fs s.now
      (Function.update ((s.renameIn s.current .tmp .rotating).fs s.now) .tmp
        (some (((s.renameIn s.current .tmp .rotating).fs s.now .tmp).getD ⟨[],s.now⟩))) = _
    rw [hrename,Function.update_of_ne hnow,(h.beyond s.now hlt).1]
    rfl
  have hold {t : ℕ} (ht : t ≠ s.current) (ht' : t ≠ s.now) : r.fs t = s.fs t := by
    rw [hfs,Function.update_of_ne ht',Function.update_of_ne ht]
  have hcur : r.fs s.current = .only .rotating f := by
    rw [hfs,Function.update_of_ne hnow.symm,Function.update_self]
  have hnew : r.fs s.now = .only .tmp ⟨[],s.now⟩ := by
    rw [hfs,Function.update_self]
  have hempty := (h.beyond s.now hlt).2
  have hjobs {k t : ℕ} {phase : Phase}
      (hk : r.jobs k = some ⟨t,phase⟩) :
      k = s.spawned ∧ t = s.current ∧ phase = (if cfg.compressOnRotate then .rotated
        else .storing .rotating cfg.destinations) ∨
          k < s.spawned ∧ t < s.current ∧ s.jobs k = some ⟨t,phase⟩ := by
    change Function.update s.jobs s.spawned _ k = _ at hk
    by_cases hkk : k = s.spawned
    · subst hkk
      rw [Function.update_self] at hk
      cases hk
      exact .inl ⟨rfl,rfl,rfl⟩
    · rw [Function.update_of_ne hkk] at hk
      obtain ⟨hspawn,ht,-⟩ := h.jobs k t phase hk
      exact .inr ⟨hspawn,ht,hk⟩
  have hclose : ∀ t, s.closing ≠ some (t,0) := fun t ht => hclosing (h.closing t ht).2.2
  refine
    { clock := le_rfl
      clean := h.clean
      waiting := h.waiting
      beyond := fun t ht => ⟨(hold (hlt.trans ht).ne' (Nat.ne_of_gt ht)).trans (h.beyond t (hlt.trans ht)).1,
        (h.beyond t (hlt.trans ht)).2⟩
      kept := fun t ht => h.kept t (hlt.le.trans ht)
      held := fun t => ?_
      active := fun _ => ⟨_,hnew,by change [] = encoded (s.logged s.now); rw [hempty]; rfl,rfl⟩
      unstored := fun basePath => by
        change r.fs s.now _ = none
        rw [hnew]
        exact Row.only_ne _ (by simp)
      sized := fun _ => hempty
      jobs := fun k t phase hk => ?_
      alone := fun k k' t phase phase' hk hk' => ?_
      objects := fun folder t g hg => (h.objects folder t g hg).imp_right (fun h => ⟨h.1.trans hlt,h.2⟩)
      quiet := h.quiet
      closing := fun t ht => absurd ht (hclose t) }
  · change Held copies (s.removed t) _ (s.logged t)
    by_cases ht : t = s.current
    · rw [ht,hcur,h.kept s.current le_rfl]
      exact .one .rotating hcontent
    · by_cases ht' : t = s.now
      · rw [ht',hempty]
        exact .vacant _ _
      · rw [hold ht ht']
        exact h.held t
  · rcases hjobs hk with ⟨rfl,rfl,rfl⟩ | ⟨hspawn,ht,hk⟩
    · refine ⟨Nat.lt_succ_self _,hlt,?_⟩
      rw [hcur]
      split
      · exact .rotated rfl hcontent
      · refine .storing (fun g hg => ?_) (by simp)
        rw [Row.only_self] at hg
        cases hg
        exact ⟨rfl,hcontent⟩
    · refine ⟨Nat.lt_succ_of_lt hspawn,ht.trans hlt,?_⟩
      rw [hold ht.ne (ht.trans hlt).ne]
      exact (h.jobs k t phase hk).2.2
  · rcases hjobs hk with ⟨rfl,rfl,-⟩ | ⟨-,ht,hk⟩ <;> rcases hjobs hk' with ⟨rfl,hc,-⟩ | ⟨-,ht',hk'⟩
    · rfl
    · exact absurd ht' (lt_irrefl _)
    · exact absurd ht (hc ▸ lt_irrefl _)
    · exact h.alone k k' t phase phase' hk hk'

theorem rotate (cfg : Config) {outcome : RotateOutcome}
    (hok : Careful s (.rotate outcome)) : Sound copies (s.rotate cfg outcome) := by
  unfold Logger.rotate
  split
  · exact h
  · next hrun =>
    rw [not_or] at hrun
    obtain ⟨hsize,hopen⟩ := hrun
    obtain ⟨f,hrow,hcontent,-⟩ := h.active (by simpa using hopen)
    have hclosed : Sound copies { s with isOpen := false } :=
      { h with active := fun ho => absurd ho (by simp) }
    rw [if_neg (by rw [hrow,Row.only_self]; simp)]
    cases outcome with
    | renameFailed => exact hclosed
    | openFailed restored =>
      have hshut : Sound copies { s.renameIn s.current .tmp .rotating with isOpen := false } := by
        rw [Logger.renameIn,hrow,Row.rename_only]
        exact h.shut (.one .rotating hcontent) (fun _ => Row.only_ne f (by simp))
      dsimp only
      split
      · have hback : ({ s.renameIn s.current .tmp .rotating with isOpen := false } : Logger).renameIn
            s.current .rotating .tmp = { s with isOpen := false } := by
          rw [Logger.renameIn,Logger.renameIn]
          dsimp only
          rw [Function.update_self,hrow,Row.rename_only,Row.rename_only,Function.update_idem,← hrow,
            Function.update_eq_self]
        rw [hback]
        exact hclosed
      · exact hshut
    | rotated => exact h.rotated cfg hrow hcontent hsize hok

theorem closeFinish (cfg : Config) {outcome : RotateOutcome}
    (hok : Careful s (.closeFinish outcome)) (hs : s.closeFinish cfg outcome = some s') : Sound copies s' := by
  unfold Logger.closeFinish at hs
  split at hs
  · cases hs
  · next t hclosing =>
    obtain ⟨-,rfl,hzero⟩ := h.closing t hclosing
    have hnil := h.sized hzero
    have hheld : Held copies false (Function.update (s.fs s.current) .tmp none) (s.logged s.current) :=
      hnil ▸ .vacant _ _
    have hshut := h.shut hheld
      (fun basePath => (Function.update_of_ne (by simp) ..).trans (h.unstored basePath))
    cases hs
    rw [if_pos rfl]
    exact { hshut with closing := fun t ht => absurd ht (by simp) }
  · cases hs
    have hrotate : Careful s (.rotate outcome) := by
      cases outcome <;> exact hok
    exact { h.rotate cfg hrotate with closing := fun t ht => absurd ht (by simp) }

end Sound

def failover (cfg : Config) : System Logger Action where
  initial s := ∃ now, s = newFailoverLogger now
  step s := s.step cfg

theorem sound_new (copies : Bool) (now : ℕ) : Sound copies (newFailoverLogger now) := by
  have hrow : (newFailoverLogger now).fs now = .only .tmp ⟨[],now⟩ := by
    change Function.update (fun _ => Row.bare) now (Row.only .tmp ⟨[],now⟩) now = _
    exact Function.update_self ..
  have hbare {t : ℕ} (ht : t ≠ now) : (newFailoverLogger now).fs t = .bare := by
    change Function.update (fun _ => Row.bare) now (Row.only .tmp ⟨[],now⟩) t = _
    exact Function.update_of_ne ht ..
  refine
    { clock := le_rfl
      clean := fun _ p hp => absurd hp List.not_mem_nil
      waiting := fun p hp => absurd hp List.not_mem_nil
      beyond := fun t ht => ⟨hbare (Nat.ne_of_gt ht),rfl⟩
      kept := fun _ _ => rfl
      held := fun _ => .vacant _ _
      active := fun _ => ⟨_,hrow,rfl,rfl⟩
      unstored := fun basePath => (congrFun hrow _).trans (Row.only_ne _ (by simp))
      sized := fun _ => rfl
      jobs := ?_
      alone := ?_
      objects := ?_
      quiet := fun h => absurd h (by simp [newFailoverLogger])
      closing := ?_ } <;> intros <;> contradiction

variable {copies : Bool} {s : Logger}

theorem Sound.step {s' : Logger} {a : Action} (cfg : Config) (h : Sound copies s) (hok : Careful s a)
    (hmoves : copies = false → Moves s a) (hs : s.step cfg a = some s') : Sound copies s' := by
  cases a with
  | elapse seconds =>
    cases hs
    exact { h with clock := h.clock.trans (Nat.le_add_right _ _) }
  | call payload =>
    cases hs
    rw [Logger.call,if_neg (by simp [hok.1])]
    refine
      { h with
        waiting := fun p hp => ?_
        quiet := fun hc => absurd hc (by simp [hok.1]) }
    rcases List.mem_append.mp hp with hp | hp
    · exact h.waiting p hp
    · exact List.mem_singleton.mp hp ▸ hok.2
  | write payload outcome => exact h.logPayload hok hs
  | rotate outcome =>
    cases hs
    exact h.rotate cfg hok
  | compress k outcome => exact h.compressFile hmoves hs
  | unlink k success =>
    cases hok
    exact h.unlink cfg hs
  | store k success oldest => exact h.store hmoves hs
  | closeBegin =>
    obtain ⟨-,hs⟩ := Option.ite_none_left_eq_some.mp hs
    cases hs
    refine { h with quiet := fun _ => hok, closing := fun t ht => ?_ }
    obtain ⟨rfl,hzero⟩ := Prod.mk.inj (Option.some.inj ht)
    exact ⟨rfl,rfl,hzero⟩
  | closeFinish outcome => exact h.closeFinish cfg hok hs

def replaced (s : Logger) : Action → Option (ℕ × Kind)
  | .rotate outcome | .closeFinish outcome =>
    if s.currentSize = 0 ∨ s.isOpen = false ∨ outcome = .renameFailed then none else some (s.current,.rotating)
  | .compress k _ => match s.jobs k with
    | some ⟨t,.rotated⟩ => some (t,.compressed)
    | _ => none
  | .store k _ _ => match s.jobs k with
    | some ⟨t,.storing finalPath (.file basePath _ :: _)⟩ =>
      if (s.fs t finalPath).isSome then some (t,.stored basePath) else none
    | _ => none
  | _ => none

def Undamaged (s : Logger) (a : Action) : Prop :=
  (∀ t k, replaced s a = some (t,k) → s.fs t k = none) ∧
  ∀ k success oldest t finalPath folder rest f old, a = .store k success oldest →
    s.jobs k = some ⟨t,.storing finalPath (.s3 folder :: rest)⟩ → s.fs t finalPath = some f →
    s.objects folder t = some old → old.content = f.content

theorem Sound.rotating (h : Sound copies s) {outcome : RotateOutcome} {t : ℕ} {k : Kind}
    (hr : (if s.currentSize = 0 ∨ s.isOpen = false ∨ outcome = .renameFailed then none
      else some (s.current,Kind.rotating)) = some (t,k)) : s.fs t k = none := by
  obtain ⟨hrun,hr⟩ := Option.ite_none_left_eq_some.mp hr
  cases hr
  rw [not_or,not_or] at hrun
  obtain ⟨f,hrow,-⟩ := h.active (by simpa using hrun.2.1)
  rw [hrow]
  exact Row.only_ne f (by decide)

theorem Sound.undamaged (h : Sound copies s) (a : Action) : Undamaged s a := by
  refine ⟨fun t k hr => ?_,?_⟩
  · cases a with
    | rotate | closeFinish => exact h.rotating hr
    | compress j =>
      dsimp only [replaced] at hr
      split at hr
      · next t hj =>
        cases hr
        cases (h.jobs j t _ hj).2.2 with
        | rotated hrow =>
          rw [hrow]
          exact Row.only_ne _ (by decide)
      · cases hr
    | store j =>
      dsimp only [replaced] at hr
      split at hr
      · next t finalPath basePath _ _ hj =>
        obtain ⟨hsome,hr⟩ := Option.ite_none_right_eq_some.mp hr
        cases hr
        obtain ⟨f,hf⟩ := Option.isSome_iff_exists.mp hsome
        cases (h.jobs j t _ hj).2.2 with
        | storing hrow hne =>
          rw [(hrow f hf).1]
          exact Row.only_ne f (Ne.symm (hne basePath))
      · cases hr
    | _ => cases hr
  · rintro k success oldest t finalPath folder rest f old rfl hj hf hold
    cases (h.jobs k t _ hj).2.2 with
    | storing hrow => rw [(h.objects folder t old hold).2.2,(hrow f hf).2]

theorem sound_of_reachable {cfg : Config} {ok : Logger → Action → Prop} (h : (failover cfg).Reachable ok s)
    (hok : ∀ s a, ok s a → Careful s a ∧ (copies = false → Moves s a)) : Sound copies s := by
  refine h.invariant (I := Sound copies) ?_
    (fun s a _ hs ha hstep => hs.step cfg (hok s a ha).1 (hok s a ha).2 hstep)
  rintro _ ⟨now,rfl⟩
  exact sound_new copies now

theorem failover_keeps_every_payload (cfg : Config) (s : Logger) :
    ((failover cfg).Reachable Single s → ∀ t, Located s t) ∧
    ((failover cfg).Reachable Careful s → (∀ t, Retained s t) ∧ ∀ a, Undamaged s a) := by
  refine ⟨fun h t => ?_,fun h => ?_⟩
  · have hs : Sound false s := sound_of_reachable h (fun _ _ ha => ⟨ha.1,fun _ => ha.2⟩)
    have hobjects (folder : String) : s.objects folder t = none :=
      Option.eq_none_iff_forall_ne_some.mpr fun f hf => Bool.false_ne_true (hs.objects folder t f hf).1
    exact (hs.held t).located (hs.clean t) hobjects
  · have hs : Sound true s := sound_of_reachable h (fun _ _ ha => ⟨ha,by simp⟩)
    exact ⟨fun t => (hs.held t).retained (hs.clean t),hs.undamaged⟩

instance (s : Logger) : (a : Action) → Decidable (Careful s a)
  | .call _ => inferInstanceAs (Decidable (_ ∧ _))
  | .write _ (.failed _) => inferInstanceAs (Decidable (_ = _))
  | .rotate .rotated | .closeFinish .rotated => inferInstanceAs (Decidable (_ ≠ _))
  | .unlink _ _ => inferInstanceAs (Decidable (_ = _))
  | .closeBegin => inferInstanceAs (Decidable (_ = _))
  | .elapse _ | .write _ .written | .compress _ _ | .store _ _ _ => isTrue trivial
  | .rotate .renameFailed | .rotate (.openFailed _) => isTrue trivial
  | .closeFinish .renameFailed | .closeFinish (.openFailed _) => isTrue trivial

instance (s : Logger) : (a : Action) → Decidable (Moves s a)
  | .compress _ _ => inferInstanceAs (Decidable (_ = _))
  | .store _ _ _ => inferInstanceAs (Decidable (_ → _))
  | .elapse _ | .call _ | .write _ _ | .rotate _ | .unlink _ _ | .closeBegin | .closeFinish _ => isTrue trivial

instance (s : Logger) (a : Action) : Decidable (Single s a) := inferInstanceAs (Decidable (_ ∧ _))

def sampleConfig : Config := ⟨true,[.s3 "failover",.file "/var/failover" 1]⟩

def localConfig : Config := ⟨false,[.file "/var/failover" 1]⟩

def firstRun : List Action := [.call [1],.write [1] .written,.elapse 1,.rotate .rotated,.compress 0 .done,
  .unlink 0 true,.store 0 true [],.store 0 true [],.call [2],.write [2] .written,.closeBegin]

def localRun : List Action := [.call [1],.write [1] .written,.elapse 1,.rotate .rotated,
  .store 0 true [],.call [2],.write [2] .written,.closeBegin]

def Logged (s : Logger) : Bool := s.logged 0 = [[1]] ∧ s.logged 1 = [[2]]

theorem failover_keeps_every_payload_firstRun :
    (∃ s, (failover localConfig).Reachable Single s ∧ Logged s ∧ Located s 0 ∧ Located s 1) ∧
    ∃ s, (failover sampleConfig).Reachable Careful s ∧ Logged s ∧ Retained s 0 ∧ Retained s 1 := by
  obtain ⟨s,hs,hlog⟩ : ∃ s, ((failover localConfig).guard Single).run (newFailoverLogger 0) localRun = some s ∧
      Logged s := (Option.any_eq_true _ _).mp (by decide +kernel)
  obtain ⟨s',hs',hlog'⟩ : ∃ s, ((failover sampleConfig).guard Careful).run (newFailoverLogger 0) firstRun =
      some s ∧ Logged s := (Option.any_eq_true _ _).mp (by decide +kernel)
  have hr := (System.Reachable.initial (T := failover localConfig) ⟨0,rfl⟩).guarded hs
  have hr' := (System.Reachable.initial (T := failover sampleConfig) ⟨0,rfl⟩).guarded hs'
  have hl := (failover_keeps_every_payload localConfig s).1 hr
  have hl' := ((failover_keeps_every_payload sampleConfig s').2 hr').1
  exact ⟨⟨s,hr,hlog,hl 0,hl 1⟩,s',hr',hlog',hl' 0,hl' 1⟩

def Misplaced (as : List Action) : Prop :=
  ∃ s, (failover sampleConfig).run (newFailoverLogger 0) as = some s ∧ ¬Located s 0

variable {as : List Action}

theorem misplaced_of_lines (hs : (failover sampleConfig).run (newFailoverLogger 0) as = some s)
    (hlog : s.logged 0 ≠ []) (hkept : s.removed 0 = false) (hobjects : ∀ folder, s.objects folder 0 = none)
    (hlines : ∀ k f, s.fs 0 k = some f → lines f.content ≠ s.logged 0) : Misplaced as := by
  refine ⟨s,hs,?_⟩
  rintro (h | ⟨h,-⟩ | ⟨place,f,hf,hl,-⟩)
  · exact hlog h
  · rw [hkept] at h
    cases h
  · cases place with
    | file k => exact hlines k f hf hl
    | object folder =>
      rw [Logger.at,hobjects] at hf
      cases hf

theorem misplaced_of_two (place place' : Place) (hne : place ≠ place')
    (hrun : ((failover sampleConfig).run (newFailoverLogger 0) as).any (fun s =>
      s.logged 0 = [[1]] ∧ s.removed 0 = false ∧ (s.at 0 place).any (fun f => [1] ∈ lines f.content) ∧
      (s.at 0 place').any (fun f => [1] ∈ lines f.content)) = true) : Misplaced as := by
  simp only [Option.any_eq_true,decide_eq_true_eq] at hrun
  obtain ⟨s,hs,hlog,hkept,⟨f,hf,hl⟩,g,hg,hl'⟩ := hrun
  refine ⟨s,hs,?_⟩
  have hmem : [1] ∈ s.logged 0 := by simp [hlog]
  rintro (h | ⟨h,-⟩ | ⟨_,_,-,-,honly⟩)
  · rw [h] at hmem
    cases hmem
  · rw [hkept] at h
    cases h
  · exact hne ((honly place f hf ⟨_,hmem,hl⟩).trans (honly place' g hg ⟨_,hmem,hl'⟩).symm)

def sameSecond : List Action := [.call [1],.write [1] .written,.rotate .rotated,
  .call [2],.write [2] .written,.rotate .rotated]

def closedCall : List Action := [.closeBegin,.closeFinish .rotated,.call [1]]

def closeRace : List Action := [.call [1],.closeBegin,.write [1] .written,.closeFinish .rotated]

def partialWrite : List Action := [.call [1,1],.write [1,1] (.failed [1]),.call [2],.write [2] .written]

def lineBreak : List Action := [.call [newline],.write [newline] .written]

def rotation : List Action := [.call [1],.write [1] .written,.elapse 1,.rotate .rotated]

def compression : List Action := rotation ++ [.compress 0 .done]

def compressFailed : List Action := rotation ++ [.compress 0 (.failed (some [1,newline]))]

def upload : List Action := compression ++ [.unlink 0 true,.store 0 true [],.store 0 true []]

def unlinkFailed : List Action := compression ++ [.unlink 0 false,.store 0 false [],.store 0 true []]

theorem payloads_lost_or_doubled :
    (Misplaced sameSecond ∧ Misplaced closedCall ∧ Misplaced closeRace ∧ Misplaced partialWrite ∧
      Misplaced lineBreak) ∧
    Misplaced unlinkFailed ∧ Misplaced compression ∧ Misplaced compressFailed ∧ Misplaced upload := by
  constructor
  · refine ⟨misplaced_of_lines rfl (by decide +kernel) rfl (fun _ => rfl) ?_,
      misplaced_of_lines rfl (by decide +kernel) rfl (fun _ => rfl) ?_,
      misplaced_of_lines rfl (by decide +kernel) rfl (fun _ => rfl) ?_,
      misplaced_of_lines rfl (by decide +kernel) rfl (fun _ => rfl) ?_,
      misplaced_of_lines rfl (by decide +kernel) rfl (fun _ => rfl) ?_⟩ <;>
    · intro k f hf
      cases k <;> cases hf <;> decide +kernel
  · exact ⟨
      misplaced_of_two (.file .rotating) (.file (.stored "/var/failover")) (by decide) (by decide +kernel),
      misplaced_of_two (.file .rotating) (.file .compressed) (by decide) (by decide +kernel),
      misplaced_of_two (.file .rotating) (.file .compressed) (by decide) (by decide +kernel),
      misplaced_of_two (.object "failover") (.file (.stored "/var/failover")) (by decide) (by decide +kernel)⟩

end Jitsu.Failover
