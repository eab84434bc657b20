import Jitsu.ReverseEtl.Plans

namespace Jitsu.ReverseEtl
open Checked Std Program Program.Prog

variable {J : Type} [DecidableEq J] {env : Env J} {run : RunInput} {store : J} {c : Cell J}

theorem finishPlan_ok {input : FinishResult J} {reconciled : Bool} {now time : ℕ} {v : View J}
    {draft : Option (Draft J)}
    (h : finishPlan env input store reconciled now v.session v.row = .ok (.resolve time draft)) :
    (draft = none ∧ v.row.phase = .finishResolving) ∨ ∃ d, draft = some d ∧ Move env v d ∧
      (input.delivery ≠ .pending → d.changes.phase = some .finishResolving) := by
  simp only [finishPlan,bind_eq_ok,require_eq_ok] at h
  obtain ⟨result,hres,_,hphase,_,_,h⟩ := h
  have hr : result = input := validateFinishResult_ok hres
  subst hr
  split at h
  · simp at h
  · simp only [bind_eq_ok,require_eq_ok] at h
    obtain ⟨_,_,h⟩ := h
    split at h
    · rename_i hp
      simp only [bind_eq_ok,pure_eq_ok] at h
      obtain ⟨_,_,h⟩ := h
      cases h
      exact .inl ⟨rfl,hp⟩
    · rename_i hp
      have hprep : v.row.phase = .finishPrepared ∨ v.row.phase = .finishPending := by tauto
      simp only [bind_eq_ok,pure_eq_ok] at h
      obtain ⟨_,_,_,_,h⟩ := h
      cases h
      refine .inr ⟨_,rfl,?_,fun hd => by simp [hd]⟩
      by_cases hd : result.delivery = .pending
      · by_cases hn : v.session.head.isNative = true
        · simpa [hd,hn] using Move.pendingFinish ⟨rfl,rfl,rfl,rfl⟩ hn hprep rfl
        · simpa [hd,hn] using Move.control ⟨rfl,rfl,rfl,rfl⟩ (.finishPending hprep)
      · simpa [hd] using Move.control ⟨rfl,rfl,rfl,rfl⟩ (.finishResolving hprep)

section Snapshots

variable {row : ControlRow J} {s : Session J}

omit [DecidableEq J] in
theorem Usable.with_session (hu : Usable env run c row) (hv : ViewInv env ⟨s,row,c.saved⟩)
    (hscope : s.scope = c.session.scope) (hb : s.broken = c.session.broken) :
    Usable env run { c with session := s } row := by
  have hrow : ({ c with session := s } : Cell J).row = some row := by
    rw [Cell.row,hscope]
    exact hu.lookup
  have hview : ViewInv env (({ c with session := s } : Cell J).view row) := by
    rw [Cell.view,Cell.saved,hscope]
    exact hv
  exact ⟨⟨hscope ▸ hu.inv.sync,hu.inv.rows,fun _ => ⟨row,hrow,hview⟩⟩,hrow,hb.trans hu.live,hview⟩

structure Started (s : Session J) (c : ControlRow J) (p : SnapshotHead J) : Prop where
  mode : c.mode = .mirror
  phase : c.phase = .new ∨ c.phase = .running
  head : s.head.isSealed = false
  unsealed : p.isSealed = false
  unreplaced : p.replacementStatus = none

variable {p : SnapshotHead J}

omit [DecidableEq J] in
theorem startSnapshot_ok {refreshAfterMs : Option ℕ} {strategy : Strategy} {now : ℕ}
    {c : ControlRow J}
    (h : startSnapshot refreshAfterMs strategy now s c = .ok (some p)) : Started s c p := by
  simp only [startSnapshot,bind_eq_ok,require_eq_ok] at h
  obtain ⟨_,_,_,⟨hm,hp⟩,_,hs,h⟩ := h
  split at h
  · simp at h
  · simp only [pure_eq_ok,Option.some.injEq] at h
    subst h
    exact ⟨hm,hp,hs,rfl,rfl⟩

omit [DecidableEq J] in
theorem ViewInv.started {v : View J} (hv : ViewInv env v)
    (hst : Started v.session v.row p) :
    ViewInv env ⟨{ v.session with pending := some p },v.row,v.saved⟩ := by
  refine ⟨hv.scope,hv.head,hv.bytes,hv.run,hv.indexed,?_⟩
  rintro _ ⟨⟩
  exact ⟨hv.scope.mode.symm.trans hst.mode,hst.unsealed,hst.unreplaced,hst.head⟩

theorem appendSnapshot_ok {rows : List (String × List (Identity J))} {pageSequence : ℕ}
    {c : ControlRow J} {l : LocalIndex J}
    (h : appendSnapshot env rows pageSequence s c = .ok (some (l,p))) :
    ∃ p₀ ∈ s.pending, ∃ projected, s.localIndex.append projected = .ok l ∧
      (∀ row ∈ projected, ∀ e ∈ row.2, e.identityHash ≠ "") ∧ p.isSealed = p₀.isSealed ∧
      p.replacementStatus = p₀.replacementStatus := by
  simp only [appendSnapshot,bind_eq_ok,require_eq_ok] at h
  obtain ⟨_,_,h⟩ := h
  split at h
  · simp at h
  · rename_i p₀ hp
    simp only [bind_eq_ok] at h
    obtain ⟨_,_,_,_,projected,hproj,_,_,h⟩ := h
    split at h
    · simp at h
    · simp only [bind_eq_ok,pure_eq_ok,Option.some.injEq,Prod.mk.injEq] at h
      obtain ⟨_,_,_,_,_,_,l',hl,rfl,rfl⟩ := h
      refine ⟨p₀,hp,projected,hl,fun row hrow e he => ?_,rfl,rfl⟩
      obtain ⟨x,_,hx⟩ := mapM_mem hproj hrow
      simp only [bind_eq_ok,pure_eq_ok] at hx
      obtain ⟨es,hes,rfl⟩ := hx
      exact effects_hashed hes he

theorem Indexed.append {h : ArtifactHead J} {l l' : LocalIndex J} {rows : List (String × List (Effect J))}
    (hl : Indexed env h l) (hs : h.isSealed = false) (ha : l.append rows = .ok l')
    (hr : ∀ row ∈ rows, ∀ e ∈ row.2, e.identityHash ≠ "") : Indexed env h l' := by
  obtain ⟨hm,ho,ht⟩ := LocalIndex.append_frame ha
  refine ⟨?_,?_,?_,?_,?_,?_,LocalIndex.append_keyed hl.keyed ha,LocalIndex.append_hashed hl.hashed hr ha⟩
  · rw [hm]
    exact hl.members
  · rw [hm]
    exact hl.pruned
  · rw [ht]
    exact hl.touched
  · rw [ho]
    exact hl.sequences
  · rw [ho]
    exact hl.accepted
  · simp [hs]

theorem ViewInv.appended {v : View J} {rows : List (String × List (Identity J))} {pageSequence : ℕ}
    {r : LocalIndex J × SnapshotHead J} (hv : ViewInv env v)
    (ha : appendSnapshot env rows pageSequence v.session v.row = .ok (some r)) :
    ViewInv env ⟨{ v.session with localIndex := r.1, pending := some r.2 },v.row,v.saved⟩ := by
  obtain ⟨p₀,hp₀,projected,happ,hhash,hsealed,hrep⟩ := appendSnapshot_ok ha
  have hpend := hv.pending p₀ hp₀
  refine ⟨hv.scope,hv.head,hv.bytes,hv.run,hv.indexed.append hpend.head happ hhash,?_⟩
  rintro _ ⟨⟩
  exact ⟨hpend.mode,hsealed.trans hpend.unsealed,hrep.trans hpend.unreplaced,hpend.head⟩

end Snapshots

end Jitsu.ReverseEtl
