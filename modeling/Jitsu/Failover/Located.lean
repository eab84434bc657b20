import Jitsu.Failover.Logger

namespace Jitsu.Failover

def encoded (ls : List Payload) : List UInt8 := ls.flatMap (· ++ [newline])

theorem linesFrom_append {line p : Payload} (hp : newline ∉ p) (rest : List UInt8) :
    linesFrom line (p ++ newline :: rest) = (line.reverse ++ p) :: linesFrom [] rest := by
  induction p generalizing line with
  | nil => simp [linesFrom]
  | cons b p ih =>
    rw [List.mem_cons,not_or] at hp
    rw [List.cons_append,linesFrom,if_neg (fun h => hp.1 h.symm),ih hp.2]
    simp

variable {ls : List Payload}

theorem lines_encoded (h : ∀ p ∈ ls, newline ∉ p) : lines (encoded ls) = ls := by
  induction ls with
  | nil => rfl
  | cons p ls ih =>
    have hp : encoded (p :: ls) = p ++ newline :: encoded ls := by simp [encoded]
    rw [lines,hp,linesFrom_append (h p List.mem_cons_self)]
    exact congrArg (p :: ·) (ih (fun q hq => h q (List.mem_cons_of_mem p hq)))

theorem encoded_append (ls : List Payload) (p : Payload) :
    encoded (ls ++ [p]) = encoded ls ++ (p ++ [newline]) := by
  simp [encoded]

theorem encoded_eq_nil (h : encoded ls = []) : ls = [] := by
  cases ls with
  | nil => rfl
  | cons p ls => simp [encoded] at h

namespace Row

def bare : Row := fun _ => none

def only (k : Kind) (f : File) : Row := Function.update bare k (some f)

def copying (f g : File) : Row := Function.update (only .rotating f) .compressed (some g)

@[simp] theorem only_self (k : Kind) (f : File) : only k f k = some f := Function.update_self ..

theorem only_ne {k k' : Kind} (f : File) (h : k' ≠ k) : only k f k' = none :=
  Function.update_of_ne h ..

theorem only_remove (k : Kind) (f : File) : Function.update (only k f) k none = bare := by
  rw [only,Function.update_idem]
  exact Function.update_eq_self k bare

theorem rename_only {k k' : Kind} (f : File) : (only k f).rename k k' = only k' f := by
  rw [rename,only_self]
  rw [only_remove]
  rfl

theorem copying_unlink (f g : File) : Function.update (copying f g) .rotating none = only .compressed g := by
  funext k
  by_cases hr : k = .rotating
  · subst hr
    rw [Function.update_self,only_ne g (by decide)]
  · rw [Function.update_of_ne hr,copying]
    by_cases hc : k = .compressed
    · subst hc
      rw [Function.update_self,only_self]
    · rw [Function.update_of_ne hc,only_ne f hr,only_ne g hc]

end Row

inductive Held (copies : Bool) : Bool → Row → List Payload → Prop where
  | vacant (removed : Bool) (row : Row) : Held copies removed row []
  | removed (ls : List Payload) : Held copies true .bare ls
  | one {ls : List Payload} {f : File} (k : Kind) (content : f.content = encoded ls) :
      Held copies false (.only k f) ls
  | copying {ls : List Payload} {f : File} (allowed : copies = true) (g : File)
      (content : f.content = encoded ls) : Held copies false (.copying f g) ls

inductive Place where
  | file (k : Kind)
  | object (folder : String)
  deriving DecidableEq

def Logger.at (s : Logger) (t : ℕ) : Place → Option File
  | .file k => s.fs t k
  | .object folder => s.objects folder t

def Retained (s : Logger) (t : ℕ) : Prop :=
  s.logged t = [] ∨ s.removed t = true ∧ s.fs t = .bare ∨
  ∃ k f, s.fs t k = some f ∧ lines f.content = s.logged t

def Located (s : Logger) (t : ℕ) : Prop :=
  s.logged t = [] ∨ s.removed t = true ∧ (∀ place, s.at t place = none) ∨
  ∃ place f, s.at t place = some f ∧ lines f.content = s.logged t ∧
    ∀ place' g, s.at t place' = some g → (∃ p ∈ s.logged t, p ∈ lines g.content) → place' = place

variable {s : Logger} {t : ℕ} {copies : Bool}

theorem Held.retained (h : Held copies (s.removed t) (s.fs t) (s.logged t))
    (hclean : ∀ p ∈ s.logged t, newline ∉ p) : Retained s t := by
  unfold Retained
  generalize s.removed t = removed at h
  generalize s.fs t = row at h
  generalize s.logged t = ls at h hclean
  cases h with
  | vacant => exact .inl rfl
  | removed => exact .inr (.inl ⟨rfl,rfl⟩)
  | @one _ f k hcontent =>
    exact .inr (.inr ⟨k,f,Row.only_self k f,by rw [hcontent,lines_encoded hclean]⟩)
  | @copying _ f hallowed g hcontent =>
    refine .inr (.inr ⟨.rotating,f,?_,by rw [hcontent,lines_encoded hclean]⟩)
    rw [Row.copying,Function.update_of_ne (by decide),Row.only_self]

theorem Held.located (h : Held false (s.removed t) (s.fs t) (s.logged t))
    (hclean : ∀ p ∈ s.logged t, newline ∉ p) (hobjects : ∀ folder, s.objects folder t = none) :
    Located s t := by
  have hat (place : Place) (g : File) (hg : s.at t place = some g) :
      ∃ k, place = .file k ∧ s.fs t k = some g := by
    cases place with
    | file k => exact ⟨k,rfl,hg⟩
    | object folder =>
      rw [Logger.at,hobjects] at hg
      cases hg
  generalize hremoved : s.removed t = removed at h
  generalize hrow : s.fs t = row at h hat
  generalize hlog : s.logged t = ls at h hclean
  cases h with
  | vacant => exact .inl hlog
  | removed =>
    refine .inr (.inl ⟨hremoved,fun place => Option.eq_none_iff_forall_ne_some.mpr fun g hg => ?_⟩)
    obtain ⟨_,_,hg⟩ := hat place g hg
    cases hg
  | @one _ f k hcontent =>
    refine .inr (.inr ⟨.file k,f,?_,by rw [hlog,hcontent,lines_encoded hclean],fun place g hg _ => ?_⟩)
    · rw [Logger.at,hrow,Row.only_self]
    · obtain ⟨k',rfl,hk⟩ := hat place g hg
      by_contra hne
      rw [Row.only_ne f (fun h => hne (congrArg Place.file h))] at hk
      cases hk
  | copying hallowed => cases hallowed

variable {f : File}

theorem Held.change {removed : Bool} {row row' : Row} {k : Kind}
    (h : Held copies removed row ls) (hsome : row k = some f) (h' : Held copies false row' ls) :
    Held copies removed row' ls := by
  cases h with
  | vacant => exact .vacant removed row'
  | removed => cases hsome
  | one | copying => exact h'

inductive Working (row : Row) (ls : List Payload) : Phase → Prop where
  | rotated {f : File} (rows : row = .only .rotating f) (content : f.content = encoded ls) :
      Working row ls .rotated
  | copied {f g : File} (rows : row = .copying f g) (content : g.content = encoded ls) :
      Working row ls .copied
  | storing {finalPath : Kind} {rest : List Destination}
      (rows : ∀ f, row finalPath = some f → row = .only finalPath f ∧ f.content = encoded ls)
      (unstored : ∀ basePath, finalPath ≠ .stored basePath) : Working row ls (.storing finalPath rest)

theorem Row.copying_stored (f g : File) (basePath : String) : Row.copying f g (.stored basePath) = none := by
  rw [Row.copying,Function.update_of_ne (by simp),Row.only_ne f (by simp)]

theorem Held.removeStored {removed : Bool} {row : Row} {basePath : String}
    (h : Held copies removed row ls) (hf : row (.stored basePath) = some f) :
    Held copies true (Function.update row (.stored basePath) none) ls := by
  cases h with
  | vacant => exact .vacant true _
  | removed => cases hf
  | one k =>
    by_cases hk : k = .stored basePath
    · subst hk
      rw [Row.only_remove]
      exact .removed ls
    · rw [Row.only_ne _ (Ne.symm hk)] at hf
      cases hf
  | copying =>
    rw [Row.copying_stored] at hf
    cases hf

theorem Working.removeStored {row : Row} {basePath : String} {phase : Phase}
    (h : Working row ls phase) (hf : row (.stored basePath) = some f) :
    Working (Function.update row (.stored basePath) none) ls phase := by
  cases h with
  | rotated hrow =>
    rw [hrow,Row.only_ne _ (by simp)] at hf
    cases hf
  | copied hrow =>
    rw [hrow,Row.copying_stored] at hf
    cases hf
  | storing hrow hne =>
    refine .storing (fun g hg => ?_) hne
    rw [Function.update_of_ne (hne basePath)] at hg
    rw [(hrow g hg).1,Row.only_ne _ (Ne.symm (hne basePath))] at hf
    cases hf

end Jitsu.Failover
