import Jitsu.ReverseEtl.Keeping

namespace Jitsu.ReverseEtl
open Checked Std Program Program.Prog

variable {J : Type} [DecidableEq J] {env : Env J} {run : RunInput} {db : Db J} {c c' : Cell J}
  {row : ControlRow J} {d : Draft J} {store : J} {id : String}

abbrev Keeps (env : Env J) (run : RunInput) (db : Db J) (m : Op J Unit) : Prop :=
  Spec (Kept env run db) m (fun _ => Kept env run db) (Kept env run db)

theorem Published.kept (hk : Kept env run db c) (hu : Usable env run c row) (hp : Published env c row d c') :
    Kept env run db c' :=
  ⟨(hp.usable hu).inv,hk.follows.trans (hp.follows hu)⟩

section Performing

variable {plan : ℕ → View J → Except Failure (Option (Draft J))} (hk : Kept env run db c)
include hk

theorem Performed.kept (hp : Performed env run plan c c') : Kept env run db c' := by
  obtain ⟨row,hu,_,⟨_,rfl⟩ | ⟨d,_,hpub⟩⟩ := hp
  · exact hk
  · exact hpub.kept hk hu

theorem Stopped.kept (hp : Stopped env run plan c c') : Kept env run db c' := by
  rcases hp with rfl | ⟨row,hu,_,d,_,hun⟩
  · exact hk
  · exact hun.kept hu hk.follows

theorem publish_kept (hu : Usable env run c row) (hm : Move env (c.view row) d) :
    Spec (· = c) (Op.publish env d) (fun _ c' => Kept env run db c' ∧ Usable env run c' (d.row (c.view row)))
      (Kept env run db) :=
  spec_conseq (publish_spec hu hm) (fun _ h => h) (fun _ _ h => ⟨h.kept hk hu,h.usable hu⟩)
    fun _ h => h.kept hu hk.follows

theorem Kept.with_session {s : Session J} (hu : Usable env run c row)
    (hv : ViewInv env ⟨s,row,c.saved⟩) (hscope : s.scope = c.session.scope)
    (hb : s.broken = c.session.broken) : Kept env run db { c with session := s } :=
  ⟨(hu.with_session hv hscope hb).inv,hk.follows⟩

end Performing

theorem perform_kept {plan : ℕ → View J → Except Failure (Option (Draft J))} (hp : Plans env plan) :
    Keeps env run db (Op.perform env plan) :=
  spec_with fun _ hk => spec_conseq (perform_spec hp hk.inv) (fun _ h => h) (fun _ _ h => h.kept hk)
    fun _ h => h.kept hk

theorem current_kept {f : ControlRow J → Op J Unit} (hf : ∀ c row, Kept env run db c → Usable env run c row →
    Spec (· = c) (f row) (fun _ => Kept env run db) (Kept env run db)) :
    Keeps env run db (Op.current >>= f) := by
  refine spec_with fun c hk => ?_
  have hcurrent : Spec (· = c) Op.current (fun row c' => c' = c ∧ Usable env run c row) (Kept env run db) :=
    spec_conseq (current_spec hk.inv) (fun _ h => h) (fun _ _ h => h) (by rintro _ rfl; exact hk)
  exact spec_bind hcurrent fun row => spec_assuming fun hu => hf c row hk hu

section Finishing

structure KeptResolving (env : Env J) (run : RunInput) (db : Db J) (c : Cell J) : Prop where
  kept : Kept env run db c
  row : ∃ row, Usable env run c row ∧ row.phase = .finishResolving

theorem ack_keptResolving {input : BatchResult J} {time : ℕ} :
    Spec (KeptResolving env run db) (Op.ack env id input store true (some time))
      (fun _ => KeptResolving env run db) (Kept env run db) := by
  refine spec_with fun c hc => spec_conseq (perform_spec plans_ack hc.kept.inv) (fun _ h => h)
    (fun _ c' h => ⟨h.kept hc.kept,?_⟩) fun _ h => h.kept hc.kept
  obtain ⟨row,hu,hphase⟩ := hc.row
  obtain ⟨row',hu',now,⟨_,rfl⟩ | ⟨d,hd,hpub⟩⟩ := h
  · exact ⟨row,hu,hphase⟩
  · obtain ⟨old,_,rfl⟩ := ack_ok hd
    refine ⟨_,hpub.usable hu',?_⟩
    have : row' = row := Option.some.inj (hu'.lookup.symm.trans hu.lookup)
    rw [this]
    exact hphase

theorem resolveStaged_kept {time : ℕ} {bs : List (BatchHead J)} :
    Spec (KeptResolving env run db) (Op.resolveStaged env store time bs)
      (fun _ => KeptResolving env run db) (Kept env run db) := by
  induction bs with
  | nil => exact spec_pure fun _ h => h
  | cons b bs ih =>
    refine spec_bind (Q := fun _ => KeptResolving env run db) ?_ fun _ => ih
    unfold Op.resolveBatch
    split
    · exact spec_throw fun _ h => h.kept
    · exact ack_keptResolving

theorem acceptFinish_kept : Spec (KeptResolving env run db) (Op.acceptFinish env) (fun _ => Kept env run db)
    (Kept env run db) := by
  refine spec_with fun c hc => spec_get_bind (spec_lift_bind hc.kept fun d hd => ?_)
  obtain ⟨row,hu,hphase⟩ := hc.row
  exact spec_conseq (publish_kept hc.kept hu (.acceptFinish hphase hd)) (fun _ h => h) (fun _ _ h => h.1)
    fun _ h => h

theorem finish_kept {input : FinishResult J} {reconciled : Bool} :
    Keeps env run db (Op.finish env input store reconciled) := by
  refine current_kept fun c row hk hu => spec_ask_bind hk fun r => spec_get_bind ?_
  refine spec_lift_bind hk fun plan hplan => ?_
  cases plan with
  | unchanged => exact spec_done hk
  | resolve time draft =>
    have hok := finishPlan_ok (v := c.view row) hplan
    have hpub : Spec (· = c) (draft.elim (pure ()) (Op.publish env))
        (fun _ c' => Kept env run db c' ∧ (input.delivery ≠ .pending → KeptResolving env run db c'))
        (Kept env run db) := by
      rcases hok with ⟨rfl,hp⟩ | ⟨d,rfl,hm,hp⟩
      · exact spec_done ⟨hk,fun _ => ⟨hk,row,hu,hp⟩⟩
      · refine spec_conseq (publish_kept hk hu hm) (fun _ h => h) (fun _ c' h => ⟨h.1,fun hd => ?_⟩)
          fun _ h => h
        refine ⟨h.1,_,h.2,?_⟩
        rw [Draft.row_phase,hp hd]
        rfl
    refine spec_bind hpub fun _ => spec_ite (fun _ => spec_pure fun _ h => h.1) fun hd => ?_
    refine spec_with fun c' hc' => spec_get_bind ?_
    refine spec_pre ?_ (by rintro _ rfl; exact hc'.2 hd)
    exact spec_bind resolveStaged_kept fun _ => acceptFinish_kept

end Finishing

section Snapshots

theorem startSnapshot_kept {refreshAfterMs : Option ℕ} {strategy : Strategy} :
    Keeps env run db (Op.startSnapshot env refreshAfterMs strategy) := by
  refine current_kept fun c row hk hu => spec_ask_bind hk fun r => spec_get_bind
    (spec_lift_bind hk fun o ho => ?_)
  cases o with
  | none => exact spec_done hk
  | some p =>
    have hst := startSnapshot_ok ho
    have hpend : ViewInv env ⟨{ c.session with pending := some p },row,c.saved⟩ := hu.view.started hst
    exact spec_modify_bind (spec_conseq (publish_kept (hk.with_session hu hpend rfl rfl)
      (hu.with_session hpend rfl rfl) (.startSnapshot rfl hst.mode hst.phase)) (fun _ h => h)
      (fun _ _ h => h.1) fun _ h => h)

theorem appendSnapshot_kept {rows : List (String × List (Identity J))} {pageSequence : ℕ} :
    Keeps env run db (Op.appendSnapshot env rows pageSequence) := by
  refine current_kept fun c row hk hu => spec_get_bind (spec_lift_bind hk fun o ho => ?_)
  cases o with
  | none => exact spec_done hk
  | some r => exact spec_update (hk.with_session hu (hu.view.appended ho) rfl rfl)

end Snapshots

section Opening

variable {scope : Scope} {project : Project J} {recovery : Bool} {h : ArtifactHead J} {l : LocalIndex J}

structure Closed (env : Env J) (run scope : RunInput) (db : Db J) (c : Cell J) : Prop where
  kept : Kept env run db c
  scope : c.session.scope = scope
  broken : c.session.broken = true

theorem Kept.close (hk : Kept env run db c) (hs : scope.SameSync run) (project : Project J) :
    Closed env run scope db { c with session := .closed scope project } :=
  ⟨⟨⟨hs,hk.inv.rows,fun h => by cases h⟩,hk.follows⟩,rfl,rfl⟩

theorem Opened.follows {db' : Db J} {control : ControlRow J}
    (ho : Opened env scope (emptyHead scope.logicalRunId) db db' recovery control row) :
    Follows env db db' := by
  intro key r hr
  by_cases hk : key = scope.key
  · subst hk
    have hsel := ho.selected
    obtain ⟨base,store,hupd⟩ := ho.updated
    rw [hr,Option.getD_some] at hsel
    rw [hr,hsel] at hupd
    exact ⟨row,ho.lookup,.single (hupd ▸ .reopened)⟩
  · exact ⟨r,(ho.others hk).trans hr,.refl⟩

theorem Closed.opened {db' : Db J} {control : ControlRow J} (hc : Closed env run scope db c)
    (ho : Opened env scope (emptyHead scope.logicalRunId) c.db db' recovery control row) :
    Closed env run scope db { c with db := db' } := by
  have hsync : scope.SameSync run := hc.scope ▸ hc.kept.inv.sync
  refine ⟨⟨⟨hc.kept.inv.sync,fun r hr hown => ?_,fun hlive => ?_⟩,hc.kept.follows.trans ho.follows⟩,
    hc.scope,hc.broken⟩
  · exact ho.rows (fun r hr hown => hc.kept.inv.rows r hr (hsync.owns.mp hown)) r hr (hsync.owns.mpr hown)
  · exact absurd (hc.broken.symm.trans hlive) (by simp)

section Journal

variable (hc : Closed env run scope db c) (hrow : c.row = some row) (hm : Matches env scope row)
  (hh : row.artifactHead = some h)
include hc hrow hm hh

theorem Closed.rowInv : RunInv env row h ∨ Carried env row h := by
  have hlook : c.db.control row.key = some row := by
    rw [hm.key,← hc.scope]
    exact hrow
  have howns : run.owns row := by
    refine (hc.kept.inv.sync.owns).mp (RunInput.owns_of_key ?_)
    rw [hc.scope]
    exact hm.key
  exact hc.kept.inv.rows row (Db.control_mem hlook).1 howns h hh

theorem Closed.resume (hid : h.runId = scope.logicalRunId) (hl : restore env row.mode h = .ok l) :
    Kept env run db { c with session := openSession scope project recovery h l } := by
  have hrun : RunInv env row h := by
    refine (hc.rowInv hrow hm hh).resolve_right fun hcar => hcar.foreign ?_
    rw [hid]
    have := hm.key
    simp only [ControlRow.key,RunInput.key,List.cons.injEq] at this
    exact this.2.2.1.symm
  obtain ⟨l',hl',hidx⟩ := restore_indexed hrun.head
  rw [hl,Except.ok.injEq] at hl'
  subst hl'
  refine ⟨⟨hc.scope ▸ hc.kept.inv.sync,hc.kept.inv.rows,fun _ => ⟨row,?_,?_⟩⟩,hc.kept.follows⟩
  · rw [← hrow,Cell.row,Cell.row,hc.scope]
    rfl
  · exact RunInv.view hm hh hrun hidx

variable {index : LocalIndex J} {compacted : ArtifactHead J}

theorem Closed.compact (hid : h.runId ≠ scope.logicalRunId) (hl : restore env row.mode h = .ok l)
    (hi : compactIndex env row.mode h l = .ok index)
    (hcomp : compactHead env scope.logicalRunId index = .ok compacted)
    (hcommit : Committed env (openSession scope project recovery h index.retained)
      { edit := .reset compacted } c c') :
    Closed env run scope db c' ∧
      Kept env run db { c' with session := openSession scope project recovery compacted index.retained } := by
  have hkey := hm.key
  have hrunId : row.runId = scope.logicalRunId := by
    simp only [ControlRow.key,RunInput.key,List.cons.injEq] at hkey
    exact hkey.2.2.1
  have hcar : Carried env row h :=
    (hc.rowInv hrow hm hh).resolve_left fun hr => hid (hr.run.trans hrunId)
  obtain ⟨hrun,hidx⟩ := hcar.compact hl hi (hrunId ▸ hcomp)
  obtain ⟨row',saved,hrow',_,rfl⟩ := hcommit
  rw [hrow,Option.some.injEq] at hrow'
  subst hrow'
  have hlook : c.db.control row.key = some row := by
    rw [hkey,← hc.scope]
    exact hrow
  have hrows : ∀ r ∈ (c.db.put { row with artifactHead := some compacted } saved).controls, run.owns r →
      RowInv env r := by
    refine Db.put_rows hc.kept.inv.rows fun _ => ?_
    rintro _ ⟨⟩
    exact .inl hrun
  have hfollows : Follows env db (c.db.put { row with artifactHead := some compacted } saved) :=
    hc.kept.follows.trans (.put hlook rfl (.compacted hh hcar))
  refine ⟨⟨⟨⟨hc.kept.inv.sync,hrows,fun hlive => ?_⟩,hfollows⟩,hc.scope,hc.broken⟩,
    ⟨hc.scope ▸ hc.kept.inv.sync,hrows,fun _ => ⟨_,?_,RunInv.view ?_ rfl hrun hidx⟩⟩,hfollows⟩
  · exact absurd (hc.broken.symm.trans hlive) (by simp)
  · change (c.db.put { row with artifactHead := some compacted } saved).control scope.key = _
    rw [← hkey]
    exact @Db.put_control_self _ _ { row with artifactHead := some compacted } _ _ hlook
  · exact ⟨hkey,hm.mode,hm.extraction,hm.revision,hm.target⟩

theorem openJournal_kept : Spec (· = c) (Op.openJournal env scope project recovery)
    (fun _ => Kept env run db) (Kept env run db) := by
  have hk := hc.kept
  refine spec_bind (Q := fun r c' => c' = c ∧ r = row) ?_ fun r => spec_assuming fun hr => ?_
  · apply spec_get_bind
    rw [hrow]
    exact spec_done ⟨rfl,rfl⟩
  subst hr
  rw [hh]
  refine spec_ask_bind hk fun r => spec_lift_bind hk fun _ _ => spec_lift_bind hk fun l hl => ?_
  refine spec_ite (fun hid => spec_update (hc.resume hrow hm hh hid hl)) fun hid => ?_
  refine spec_lift_bind hk fun index hi => spec_lift_bind hk fun compacted hcomp => ?_
  refine spec_bind (spec_conseq commit_spec (fun _ h => h) (fun _ _ h => h) ?_) fun _ => ?_
  · rintro _ (rfl | rfl | ⟨c'',hcommit,rfl⟩)
    · exact hk
    · exact ⟨hk.inv.markBroken,hk.follows⟩
    · have hclosed := (hc.compact hrow hm hh hid hl hi hcomp hcommit).1.kept
      exact ⟨hclosed.inv.markBroken,hclosed.follows⟩
  · exact spec_modify fun c' hcommit => (hc.compact hrow hm hh hid hl hi hcomp hcommit).2

end Journal

theorem openLogicalRun_kept (hs : scope.SameSync run) :
    Keeps env run db (Op.openLogicalRun env scope project) := by
  refine spec_with fun c hk => spec_modify_bind ?_
  have hclosed := hk.close hs project
  refine spec_ask_bind hclosed.kept fun r => spec_lift_bind hclosed.kept fun _ _ => spec_get_bind ?_
  refine spec_lift_bind hclosed.kept fun o ho => ?_
  obtain ⟨db',recovery⟩ := o
  obtain ⟨control,row,hopened⟩ := openRun_ok ho
  have hnext := hclosed.opened hopened
  obtain ⟨h,hh⟩ := Option.isSome_iff_exists.mp hopened.target.1
  have hhead : row.artifactHead = some h := by
    obtain ⟨base,store,rfl⟩ := hopened.updated
    exact hh
  refine spec_modify_bind (spec_lift_bind hnext.kept fun _ _ => ?_)
  exact openJournal_kept hnext hopened.lookup hopened.matches_scope hhead

end Opening

def Call.For (run : RunInput) : Call J → Prop
  | .openRun scope _ => scope.SameSync run
  | _ => True

instance {call : Call J} : Decidable (call.For run) := by
  cases call <;> dsimp only [Call.For] <;> infer_instance

theorem ack_keeps {input : BatchResult J} {reconciled : Bool} {finishAt : Option ℕ} :
    Keeps env run db (Op.ack env id input store reconciled finishAt) :=
  perform_kept plans_ack

theorem call_kept {call : Call J} (hf : call.For run) : Keeps env run db (call.program env) := by
  cases call with
  | prepareInit store => exact perform_kept plans_prepareInit
  | acknowledgeInit store => exact perform_kept plans_acknowledgeInit
  | resetInitAfterReconciliation store =>
    change Keeps env run db (Op.resetInitAfterReconciliation env store)
    exact perform_kept plans_resetInit
  | saveProviderState state => exact perform_kept plans_saveProviderState
  | prepare batch store independent => exact perform_kept plans_prepare
  | markUnknown id =>
    change Keeps env run db (Op.markUnknown env id)
    exact perform_kept plans_markUnknown
  | acknowledge id result store => exact ack_keeps
  | acknowledgeRecovered id result store => exact ack_keeps
  | prepareAbort => exact perform_kept plans_prepareAbort
  | acknowledgeAbort => exact perform_kept plans_acknowledgeAbort
  | prepareFinish sequence store => exact perform_kept plans_prepareFinish
  | acknowledgeFinish result store => exact finish_kept
  | acknowledgeRecoveredFinish result store => exact finish_kept
  | sealExtraction sequence store => exact perform_kept plans_sealExtraction
  | detach =>
    change Keeps env run db (Op.detach env)
    exact perform_kept plans_detach
  | commitCheckpoint point store complete => exact perform_kept plans_commitCheckpoint
  | startSnapshot refreshAfterMs strategy => exact startSnapshot_kept
  | appendSnapshot rows pageSequence => exact appendSnapshot_kept
  | sealSnapshot counts => exact perform_kept plans_sealSnapshot
  | openRun scope project => exact openLogicalRun_kept hf

theorem Kept.calls {xs : List (Call J × List Reply)} (hk : Kept env run db c) (hx : ∀ x ∈ xs, x.1.For run) :
    Kept env run db (c.calls env xs) := by
  induction xs generalizing c with
  | nil => exact hk
  | cons x xs ih =>
    obtain ⟨hf,hx⟩ := List.forall_mem_cons.mp hx
    exact ih ((call_kept hf).final (fun _ _ h => h) (fun _ h => h) hk) hx

def Db.Fresh (run : RunInput) (db : Db J) : Prop :=
  ∀ row ∈ db.controls, run.owns row → row.artifactHead = none

def Db.boot (db : Db J) (run : RunInput) (project : Project J) : Cell J := ⟨db,.closed run project⟩

omit [DecidableEq J] in
theorem Db.Fresh.boot {project : Project J} (h : db.Fresh run) : CellInv env run (db.boot run project) where
  sync := ⟨rfl,rfl⟩
  rows := by
    intro row hr hown h' hh
    rw [h row hr hown] at hh
    cases hh
  live := fun hlive => by cases hlive

theorem CellInv.calls {xs : List (Call J × List Reply)} (hc : CellInv env run c)
    (hx : ∀ x ∈ xs, x.1.For run) : Kept env run c.db (c.calls env xs) :=
  Kept.calls ⟨hc,.refl⟩ hx

def Reached (env : Env J) (run : RunInput) (c : Cell J) : Prop :=
  ∃ (db : Db J) (project : Project J) (xs : List (Call J × List Reply)),
    db.Fresh run ∧ (∀ x ∈ xs, x.1.For run) ∧ c = (db.boot run project).calls env xs

theorem Reached.calls {xs : List (Call J × List Reply)} (hr : Reached env run c)
    (hx : ∀ x ∈ xs, x.1.For run) : Reached env run (c.calls env xs) := by
  obtain ⟨db,project,ys,hdb,hy,rfl⟩ := hr
  exact ⟨db,project,ys ++ xs,hdb,List.forall_mem_append.mpr ⟨hy,hx⟩,List.foldl_append.symm⟩

theorem Reached.inv (hr : Reached env run c) : CellInv env run c := by
  obtain ⟨db,project,xs,hdb,hx,rfl⟩ := hr
  exact (hdb.boot.calls hx).inv

end Jitsu.ReverseEtl
