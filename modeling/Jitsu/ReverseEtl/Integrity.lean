import Jitsu.ReverseEtl.Worker

namespace Jitsu.ReverseEtl
open Checked Std Program Relation

variable {J : Type}

def RunInput.SameSync (a b : RunInput) : Prop := a.workspaceId = b.workspaceId ∧ a.syncId = b.syncId

instance {a b : RunInput} : Decidable (a.SameSync b) := inferInstanceAs (Decidable (_ ∧ _))

theorem RunInput.SameSync.owns {a b : RunInput} (h : a.SameSync b) {row : ControlRow J} :
    a.owns row ↔ b.owns row := by
  simp only [RunInput.owns,h.1,h.2]

structure CommitInv [DecidableEq J] (env : Env J) (v : View J) (d : Draft J) (saved : Option (Envelope J)) :
    Prop where
  view : ViewInv env v
  move : Move env v d
  transaction : publishTx env v.session.scope v.session.headBytes (d.edit.apply v.session.head) d v.row
    v.saved = .ok (d.row v,saved)

structure CellInv (env : Env J) (run : RunInput) (c : Cell J) : Prop where
  sync : c.session.scope.SameSync run
  rows : ∀ row ∈ c.db.controls, run.owns row → RowInv env row
  live : c.session.broken = false → ∃ row, c.row = some row ∧ ViewInv env (c.view row)

inductive RowStep [DecidableEq J] (env : Env J) : ControlRow J → ControlRow J → Prop where
  | move {v : View J} {d : Draft J} (view : ViewInv env v) (move : Move env v d) : RowStep env v.row (d.row v)
  | reopened {run : RunInput} {base : ℕ} {store : Option J} {row : ControlRow J} :
      RowStep env row (reopened run true base store row)
  | compacted {row : ControlRow J} {h h' : ArtifactHead J} (head : row.artifactHead = some h)
      (carried : Carried env row h) : RowStep env row { row with artifactHead := some h' }

def Follows [DecidableEq J] (env : Env J) (db db' : Db J) : Prop :=
  ∀ key row, db.control key = some row →
    ∃ row', db'.control key = some row' ∧ ReflTransGen (RowStep env) row row'

structure Kept [DecidableEq J] (env : Env J) (run : RunInput) (db : Db J) (c : Cell J) : Prop where
  inv : CellInv env run c
  follows : Follows env db c.db

section Put

variable {db : Db J} {row old : ControlRow J} {saved : Option (Envelope J)}

theorem Db.put_control_self (h : db.control row.key = some old) :
    (db.put row saved).control row.key = some row :=
  @Db.control_update_self J db row old h

theorem Db.put_control_ne {key : List String} (hk : row.key ≠ key) :
    (db.put row saved).control key = db.control key := db.control_update_ne hk

theorem Db.put_rows {P : ControlRow J → Prop} (h : ∀ r ∈ db.controls, P r) (hrow : P row) :
    ∀ r ∈ (db.put row saved).controls, P r := by
  intro r hr
  rcases Db.mem_update hr with rfl | ⟨hr,_⟩
  · exact hrow
  · exact h r hr

end Put

variable [DecidableEq J] {env : Env J} {v : View J} {d : Draft J} {db db' db'' : Db J}
  {saved : Option (Envelope J)}

theorem Follows.refl : Follows env db db := fun _ row h => ⟨row,h,.refl⟩

theorem Follows.trans (h : Follows env db db') (h' : Follows env db' db'') : Follows env db db'' := by
  intro key row hrow
  obtain ⟨row',hrow',hs⟩ := h key row hrow
  obtain ⟨row'',hrow'',hs'⟩ := h' key row' hrow'
  exact ⟨row'',hrow'',hs.trans hs'⟩

theorem Follows.put {old row : ControlRow J} (hold : db.control old.key = some old) (hkey : row.key = old.key)
    (hs : RowStep env old row) : Follows env db (db.put row saved) := by
  intro key r hr
  by_cases hk : row.key = key
  · subst hk
    rw [hkey,hold,Option.some.injEq] at hr
    subst hr
    exact ⟨row,Db.put_control_self (hkey ▸ hold),.single hs⟩
  · exact ⟨r,(Db.put_control_ne hk).trans hr,.refl⟩

theorem publishTx_ok {scope : Scope} {bytes : Option (ArtifactHead J)} {h : ArtifactHead J}
    {old row : ControlRow J} {previous : Option (Envelope J)}
    (hp : publishTx env scope bytes h d old previous = .ok (row,saved)) :
    row = { d.changes.apply old with artifactHead := some h } := by
  simp only [publishTx,bind_eq_ok,pure_eq_ok,Prod.mk.injEq] at hp
  obtain ⟨_,_,_,_,_,_,hrow,_⟩ := hp
  exact hrow.symm

theorem CommitInv.after (hc : CommitInv env v d saved) :
    ∃ l, d.after v.session.localIndex = .ok l ∧ ViewInv env (v.next d l saved) := by
  obtain ⟨l,hl,hv⟩ := hc.move.preserves hc.view
  exact ⟨l,hl,hv saved⟩

theorem CommitInv.rowInv (hc : CommitInv env v d saved) : RowInv env (d.row v) := by
  obtain ⟨l,_,hv⟩ := hc.after
  rintro h ⟨⟩
  exact .inl hv.run

structure Stable (env : Env J) (P : ControlRow J → Prop) : Prop where
  move : ∀ v d, ViewInv env v → Move env v d → P v.row → P (d.row v)
  reopen : ∀ run base store row, P row → P (reopened run true base store row)

def Owned (env : Env J) (P : ControlRow J → Prop) (row : ControlRow J) : Prop :=
  (∃ h, row.artifactHead = some h ∧ RunInv env row h) ∧ P row

variable {P : ControlRow J → Prop}

theorem RowStep.owned {row row' : ControlRow J} (hP : Stable env P) (hs : RowStep env row row')
    (ho : Owned env P row) : Owned env P row' := by
  obtain ⟨⟨h,hh,hr⟩,hp⟩ := ho
  cases hs with
  | move view move =>
    obtain ⟨l,_,hnext⟩ := move.preserves view
    exact ⟨⟨_,rfl,(hnext none).run⟩,hP.move _ _ view move hp⟩
  | reopened => exact ⟨⟨h,hh,hr.reopen _ _⟩,hP.reopen _ _ _ _ hp⟩
  | compacted head carried =>
    rw [hh,Option.some.injEq] at head
    subst head
    exact absurd hr.run carried.foreign

theorem Follows.owned {key : List String} {row : ControlRow J} (hP : Stable env P) (hf : Follows env db db')
    (hrow : db.control key = some row) (ho : Owned env P row) :
    ∃ row', db'.control key = some row' ∧ Owned env P row' := by
  obtain ⟨row',hrow',hs⟩ := hf key row hrow
  refine ⟨row',hrow',?_⟩
  clear hrow'
  induction hs with
  | refl => exact ho
  | tail _ hstep ih => exact hstep.owned hP ih

end Jitsu.ReverseEtl
