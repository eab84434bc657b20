import Jitsu.ReverseEtl.Operations

namespace Jitsu.ReverseEtl
open Checked Std Program Program.Prog

variable {J : Type} [DecidableEq J] {env : Env J} {store : J} {id : String}

omit [DecidableEq J] in
theorem plainly_ok {plan : View J → Except Failure (Draft J)} {now : ℕ} {v : View J} {d : Draft J} :
    Op.plainly plan now v = .ok (some d) ↔ plan v = .ok d := by
  simp [Op.plainly]

theorem plans_plainly {plan : View J → Except Failure (Draft J)}
    (h : ∀ v d, ViewInv env v → plan v = .ok d → Move env v d) : Plans env (Op.plainly plan) :=
  fun _ v d hv hd => h v d hv (plainly_ok.mp hd)

theorem plans_prepareInit : Plans env (Op.plainly fun v => prepareInit env store v.session v.row) := by
  refine plans_plainly fun v d _ h => ?_
  simp only [prepareInit,bind_eq_ok,require_eq_ok,pure_eq_ok] at h
  obtain ⟨_,⟨_,hp⟩,_,_,rfl⟩ := h
  refine .control ⟨rfl,rfl,rfl,rfl⟩ ?_
  rw [hp]
  exact .prepareInit

theorem plans_acknowledgeInit :
    Plans env (Op.plainly fun v => acknowledgeInit env store v.session v.row) := by
  refine plans_plainly fun v d _ h => ?_
  simp only [acknowledgeInit,bind_eq_ok,require_eq_ok,pure_eq_ok] at h
  obtain ⟨_,⟨_,hp⟩,_,_,rfl⟩ := h
  refine .control ⟨rfl,rfl,rfl,rfl⟩ ?_
  rw [hp]
  exact .acknowledgeInit

theorem plans_resetInit :
    Plans env fun _ v => resetInitAfterReconciliation env store v.session v.row := by
  intro _ v d _ h
  simp only [resetInitAfterReconciliation,bind_eq_ok,require_eq_ok] at h
  obtain ⟨_,_,h⟩ := h
  split at h
  · simp at h
  · simp only [bind_eq_ok,require_eq_ok,pure_eq_ok,Option.some.injEq] at h
    obtain ⟨_,hp,_,_,rfl⟩ := h
    refine .control ⟨rfl,rfl,rfl,rfl⟩ ?_
    rw [hp]
    exact .resetInit

theorem plans_saveProviderState : Plans env (Op.plainly fun v => saveProviderState env store v.row) := by
  refine plans_plainly fun v d _ h => ?_
  simp only [saveProviderState,bind_eq_ok,pure_eq_ok] at h
  obtain ⟨_,_,_,_,rfl⟩ := h
  exact .control ⟨rfl,rfl,rfl,rfl⟩ (.same _)

theorem plans_prepare {batch : PreparedBatch J} {independent : Bool} :
    Plans env (Op.plainly fun v => prepare env batch store independent v.session v.row) :=
  plans_plainly fun _ _ _ h => .prepare h

theorem plans_markUnknown : Plans env fun _ v => markUnknown id v.session v.row :=
  fun _ _ _ _ h => .markUnknown h

theorem plans_ack {input : BatchResult J} {reconciled : Bool} {finishAt : Option ℕ} :
    Plans env fun now v => ack env id input store reconciled finishAt now v.session v.row :=
  fun _ _ _ _ h => .acknowledge h

theorem plans_prepareAbort : Plans env (Op.plainly fun v => prepareAbort v.session v.row) := by
  refine plans_plainly fun v d _ h => ?_
  simp only [prepareAbort,bind_eq_ok,require_eq_ok,pure_eq_ok] at h
  obtain ⟨_,hp,_,_,rfl⟩ := h
  exact .control ⟨rfl,rfl,rfl,rfl⟩ (.prepareAbort hp)

theorem plans_acknowledgeAbort : Plans env (Op.plainly fun v => acknowledgeAbort v.row) :=
  plans_plainly fun _ _ _ h => .acknowledgeAbort h

theorem plans_prepareFinish {sequence : ℕ} :
    Plans env (Op.plainly fun v => prepareFinish env sequence store v.session v.row) :=
  plans_plainly fun _ _ _ h => .prepareFinish h

theorem plans_sealExtraction {sequence : ℕ} :
    Plans env (Op.plainly fun v => sealExtraction env sequence store v.session v.row) := by
  refine plans_plainly fun v d _ h => ?_
  simp only [sealExtraction,bind_eq_ok,require_eq_ok,pure_eq_ok] at h
  obtain ⟨_,⟨_,hp,_⟩,_,_,rfl⟩ := h
  refine .control ⟨rfl,rfl,rfl,rfl⟩ ?_
  rw [hp]
  exact .sealExtraction

theorem plans_detach : Plans env fun _ v => pure (detach v.session v.row) := by
  intro _ v d _ h
  simp only [pure_eq_ok,detach] at h
  split at h
  · simp only [Option.some.injEq] at h
    subst h
    exact .control ⟨rfl,rfl,rfl,rfl⟩ (.same _)
  · cases h

theorem plans_commitCheckpoint {point : ResumePoint} {complete : Bool} :
    Plans env (Op.plainly fun v => commitCheckpoint env point store complete v.saved v.session v.row) :=
  plans_plainly fun _ _ _ h => .commitCheckpoint h

theorem plans_sealSnapshot {counts : Option (ℕ × ℕ)} :
    Plans env (Op.plainly fun v => sealSnapshot env counts v.session v.row) :=
  plans_plainly fun _ _ _ h => .sealSnapshot h

end Jitsu.ReverseEtl
