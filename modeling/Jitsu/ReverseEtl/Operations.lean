import Jitsu.ReverseEtl.Integrity

namespace Jitsu.ReverseEtl
open Checked Std Program Program.Prog

theorem abandon_spec {J : Type} {c : Cell J} {e : Failure} {Q : Unit → Cell J → Prop}
    {E : Cell J → Prop} (h : E c.markBroken) : Spec (· = c) (Op.abandon e) Q E :=
  spec_modify_bind (spec_raise h)

variable {J : Type} [DecidableEq J] {env : Env J} {run : RunInput} {c c' : Cell J} {row : ControlRow J}
  {s : Session J} {d : Draft J}

def Committed (env : Env J) (s : Session J) (d : Draft J) (c c' : Cell J) : Prop :=
  ∃ row saved, c.row = some row ∧ publishTx env s.scope s.headBytes (d.edit.apply s.head) d row c.saved =
    .ok (d.row ⟨s,row,c.saved⟩,saved) ∧ c' = c.write (d.row ⟨s,row,c.saved⟩) saved

def Uncommitted (env : Env J) (s : Session J) (d : Draft J) (c c' : Cell J) : Prop :=
  c' = c ∨ c' = c.markBroken ∨ ∃ c'', Committed env s d c c'' ∧ c' = c''.markBroken

theorem transact_spec {t : Transport} (hrow : c.row = some row) : Spec (· = c) (Op.transact env s d t row)
    (fun _ => Committed env s d c) (Uncommitted env s d c) := by
  apply spec_get_bind
  split
  · exact spec_raise (.inl rfl)
  · exact abandon_spec (.inr (.inl rfl))
  · rename_i r saved htx
    have hr : r = d.row ⟨s,row,c.saved⟩ := publishTx_ok htx
    subst hr
    have hc : Committed env s d c (c.write _ saved) := ⟨row,saved,hrow,htx,rfl⟩
    apply spec_modify_bind
    exact spec_ite (fun _ => abandon_spec (.inr (.inr ⟨_,hc,rfl⟩))) fun _ => spec_done hc

theorem commit_spec : Spec (· = c) (Op.commit env s d) (fun _ => Committed env s d c)
    (Uncommitted env s d c) := by
  have hsame : Uncommitted env s d c c := .inl rfl
  refine spec_ask_bind hsame fun upload => spec_lift_bind hsame fun _ _ => spec_lift_bind hsame fun _ _ => ?_
  refine spec_ask_bind hsame fun r => spec_ite (fun _ => abandon_spec (.inr (.inl rfl))) fun _ => ?_
  apply spec_get_bind
  split
  · exact abandon_spec (.inr (.inl rfl))
  · exact transact_spec ‹_›

structure Usable (env : Env J) (run : RunInput) (c : Cell J) (row : ControlRow J) : Prop where
  inv : CellInv env run c
  lookup : c.row = some row
  live : c.session.broken = false
  view : ViewInv env (c.view row)

def Cell.committed (c : Cell J) (d : Draft J) (row : ControlRow J) (saved : Option (Envelope J)) : Cell J :=
  c.write (d.row (c.view row)) saved

def Published (env : Env J) (c : Cell J) (row : ControlRow J) (d : Draft J) (c' : Cell J) : Prop :=
  ∃ l saved, CommitInv env (c.view row) d saved ∧ d.after c.session.localIndex = .ok l ∧
    c' = (c.committed d row saved).advance d l

def Unpublished (env : Env J) (c : Cell J) (row : ControlRow J) (d : Draft J) (c' : Cell J) : Prop :=
  c' = c ∨ c' = c.markBroken ∨ ∃ saved, CommitInv env (c.view row) d saved ∧
    c' = (c.committed d row saved).markBroken

omit [DecidableEq J] in
theorem CellInv.markBroken (hc : CellInv env run c) : CellInv env run c.markBroken :=
  ⟨hc.sync,hc.rows,fun h => by cases h⟩

section

variable (hu : Usable env run c row)

include hu

omit [DecidableEq J] in
theorem Usable.row_key : row.key = c.session.scope.key := hu.view.scope.key

theorem Usable.written {saved : Option (Envelope J)} (hc : CommitInv env (c.view row) d saved) :
    (∀ r ∈ (c.committed d row saved).db.controls, run.owns r → RowInv env r) ∧
      (c.committed d row saved).row = some (d.row (c.view row)) ∧
      Follows env c.db (c.committed d row saved).db := by
  have hlook : c.db.control row.key = some row := by
    rw [hu.row_key]
    exact hu.lookup
  refine ⟨Db.put_rows hu.inv.rows fun _ => hc.rowInv,?_,.put hlook rfl (.move hu.view hc.move)⟩
  change (c.db.put (d.row (c.view row)) saved).control c.session.scope.key = _
  rw [← hu.row_key]
  exact @Db.put_control_self _ _ (d.row (c.view row)) _ _ hlook

theorem Published.usable (hp : Published env c row d c') : Usable env run c' (d.row (c.view row)) := by
  obtain ⟨l,saved,hc,hl,rfl⟩ := hp
  obtain ⟨hrows,hrow,_⟩ := hu.written hc
  obtain ⟨l',hl',hv⟩ := hc.after
  rw [show (c.view row).session.localIndex = c.session.localIndex from rfl,hl,Except.ok.injEq] at hl'
  subst hl'
  have hsync : row.syncId = c.session.scope.syncId := by
    have := hu.row_key
    simp only [ControlRow.key,RunInput.key,List.cons.injEq] at this
    exact this.2.1
  have hview : ((c.committed d row saved).advance d l).view (d.row (c.view row)) =
      (c.view row).next d l saved := by
    have hput : ((c.committed d row saved).advance d l).saved = saved := by
      change Function.update c.db.saved row.syncId saved c.session.scope.syncId = saved
      rw [hsync,Function.update_self]
    rw [Cell.view,hput]
    rfl
  exact ⟨⟨hu.inv.sync,hrows,fun _ => ⟨_,hrow,hview ▸ hv⟩⟩,hrow,hu.live,hview ▸ hv⟩

theorem Published.follows (hp : Published env c row d c') : Follows env c.db c'.db := by
  obtain ⟨l,saved,hc,_,rfl⟩ := hp
  exact (hu.written hc).2.2

theorem Unpublished.kept {db : Db J} (hf : Follows env db c.db) (hp : Unpublished env c row d c') :
    Kept env run db c' := by
  rcases hp with rfl | rfl | ⟨saved,hc,rfl⟩
  · exact ⟨hu.inv,hf⟩
  · exact ⟨hu.inv.markBroken,hf⟩
  · obtain ⟨hrows,_,hfollows⟩ := hu.written hc
    exact ⟨⟨hu.inv.sync,hrows,fun h => by cases h⟩,hf.trans hfollows⟩

theorem Committed.commits (hm : Move env (c.view row) d) (hc : Committed env c.session d c c') :
    ∃ saved, CommitInv env (c.view row) d saved ∧ c' = c.committed d row saved := by
  obtain ⟨row',saved,hrow,htx,rfl⟩ := hc
  rw [hu.lookup,Option.some.injEq] at hrow
  subst hrow
  exact ⟨saved,⟨hu.view,hm,htx⟩,rfl⟩

theorem publish_spec (hm : Move env (c.view row) d) :
    Spec (· = c) (Op.publish env d) (fun _ => Published env c row d) (Unpublished env c row d) := by
  have hsame : Unpublished env c row d c := .inl rfl
  refine spec_bind (Q := fun _ s => s = c) ?_ fun _ => spec_get_bind ?_
  · exact spec_get_bind (spec_lift (fun _ _ _ h => h) (by rintro _ rfl; exact hsame))
  refine spec_bind (Q := fun _ => Committed env c.session d c) ?_ fun _ => spec_with fun c' hc => ?_
  · refine spec_conseq commit_spec (fun _ h => h) (fun _ _ h => h) ?_
    rintro _ (rfl | rfl | ⟨c'',hc,rfl⟩)
    · exact hsame
    · exact .inr (.inl rfl)
    · obtain ⟨saved,hcommit,rfl⟩ := hc.commits hu hm
      exact .inr (.inr ⟨saved,hcommit,rfl⟩)
  · obtain ⟨saved,hcommit,rfl⟩ := hc.commits hu hm
    obtain ⟨l,hl,_⟩ := hcommit.after
    apply spec_get_bind
    rw [show (c.committed d row saved).session.localIndex = c.session.localIndex from rfl,
      show d.after c.session.localIndex = .ok l from hl]
    exact spec_update ⟨l,saved,hcommit,hl,rfl⟩

end

omit [DecidableEq J] in
theorem current_spec (hc : CellInv env run c) :
    Spec (· = c) Op.current (fun row c' => c' = c ∧ Usable env run c row) (· = c) := by
  refine spec_bind (Q := fun _ s => s = c ∧ c.session.broken = false) ?_ fun _ => ?_
  · refine spec_get_bind (spec_lift (fun _ hok s hs => ⟨hs,?_⟩) fun _ h => h)
    simpa using hok
  refine spec_assuming fun hlive => ?_
  obtain ⟨row,hrow,hview⟩ := hc.live hlive
  refine spec_ask_bind rfl fun r => spec_lift_bind rfl fun _ _ => ?_
  apply spec_get_bind
  rw [hrow]
  exact spec_done ⟨rfl,hc,hrow,hlive,hview⟩

def Performed (env : Env J) (run : RunInput) (plan : ℕ → View J → Except Failure (Option (Draft J)))
    (c c' : Cell J) : Prop :=
  ∃ row, Usable env run c row ∧ ∃ now, (plan now (c.view row) = .ok none ∧ c' = c) ∨
    ∃ d, plan now (c.view row) = .ok (some d) ∧ Published env c row d c'

def Stopped (env : Env J) (run : RunInput) (plan : ℕ → View J → Except Failure (Option (Draft J)))
    (c c' : Cell J) : Prop :=
  c' = c ∨ ∃ row, Usable env run c row ∧ ∃ now d, plan now (c.view row) = .ok (some d) ∧
    Unpublished env c row d c'

def Plans (env : Env J) (plan : ℕ → View J → Except Failure (Option (Draft J))) : Prop :=
  ∀ now v d, ViewInv env v → plan now v = .ok (some d) → Move env v d

theorem perform_spec {plan : ℕ → View J → Except Failure (Option (Draft J))} (hp : Plans env plan)
    (hc : CellInv env run c) :
    Spec (· = c) (Op.perform env plan) (fun _ => Performed env run plan c) (Stopped env run plan c) := by
  have hsame : Stopped env run plan c c := .inl rfl
  refine spec_bind (Q := fun row s => s = c ∧ Usable env run c row) ?_ fun row => ?_
  · exact spec_conseq (current_spec hc) (fun _ h => h) (fun _ _ h => h) (by rintro _ rfl; exact hsame)
  refine spec_assuming fun hu => spec_ask_bind hsame fun r => spec_lift_bind hsame fun _ _ => spec_get_bind ?_
  refine spec_lift_bind hsame fun o ho => ?_
  cases o with
  | none => exact spec_done ⟨row,hu,r.now,.inl ⟨ho,rfl⟩⟩
  | some d =>
    exact spec_conseq (publish_spec hu (hp _ _ _ hu.view ho)) (fun _ h => h)
      (fun _ _ h => ⟨row,hu,r.now,.inr ⟨d,ho,h⟩⟩) fun _ h => .inr ⟨row,hu,r.now,d,ho,h⟩

end Jitsu.ReverseEtl
