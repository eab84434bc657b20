import Mathlib

namespace Jitsu.Lib

variable {α : Type} [DecidableEq α]

def splitN (sep : List α) : ℕ → List α → List (List α)
  | 0, _ => []
  | 1, s => [s]
  | n + 2, s =>
    match s.dropInfix? sep with
    | none => [s]
    | some (piece,rest) => piece :: splitN sep (n + 1) rest

def split (sep s : List α) : List (List α) := splitN sep (s.length + 1) s

def splitAfterN (sep : List α) : ℕ → List α → List (List α)
  | 0, _ => []
  | 1, s => [s]
  | n + 2, s =>
    match s.dropInfix? sep with
    | none => [s]
    | some (piece,rest) => (piece ++ sep) :: splitAfterN sep (n + 1) rest

def splitAfter (sep s : List α) : List (List α) := splitAfterN sep (s.length + 1) s

variable {sep s pre post : List α} {n : ℕ}

theorem dropInfix_eq_some : s.dropInfix? sep = some (pre,post) ↔
    s = pre ++ sep ++ post ∧ ∀ p q, s = p ++ sep ++ q → pre.length ≤ p.length := by
  rw [List.dropInfix?_eq_some_iff]
  simp only [beq_iff_eq]
  constructor
  · rintro ⟨⟨i,hs,rfl⟩,hfirst⟩
    exact ⟨hs,fun p q hpq => hfirst p i q hpq rfl⟩
  · rintro ⟨hs,hfirst⟩
    refine ⟨⟨sep,hs,rfl⟩,?_⟩
    rintro p i q hpq rfl
    exact hfirst p q hpq

theorem dropInfix_of_infix (h : sep <:+: s) : ∃ pre post, s.dropInfix? sep = some (pre,post) := by
  classical
  have hoccurs : ∃ n p q, s = p ++ sep ++ q ∧ p.length = n := by
    obtain ⟨p,q,hpq⟩ := h
    exact ⟨p.length,p,q,hpq.symm,rfl⟩
  obtain ⟨p,q,hs,hlength⟩ := Nat.find_spec hoccurs
  refine ⟨p,q,dropInfix_eq_some.mpr ⟨hs,fun p' q' hs' => ?_⟩⟩
  rw [hlength]
  exact Nat.find_min' hoccurs ⟨p',q',hs',rfl⟩

theorem dropInfix_eq_none : s.dropInfix? sep = none ↔ ¬sep <:+: s := by
  constructor
  · intro hnone hinfix
    obtain ⟨pre,post,hsome⟩ := dropInfix_of_infix hinfix
    cases hnone.symm.trans hsome
  · intro hno
    cases hcut : s.dropInfix? sep with
    | none => rfl
    | some cut =>
      obtain ⟨hs,-⟩ := dropInfix_eq_some.mp hcut
      exact absurd ⟨cut.1,cut.2,hs.symm⟩ hno

theorem dropInfix_first (pre post : List α) (hsep : sep ≠ []) :
    (pre ++ sep ++ post).dropInfix? sep = some (pre,post) ↔ ¬sep <:+: pre ++ sep.dropLast := by
  have hlast : (pre ++ sep.dropLast).length + 1 = (pre ++ sep).length := by
    have := List.length_pos_iff.mpr hsep
    simp
    omega
  rw [dropInfix_eq_some]
  constructor
  · rintro ⟨-,hfirst⟩ ⟨p,q,hpq⟩
    have hwhole : pre ++ sep ++ post = p ++ sep ++ (q ++ sep.getLast hsep :: post) := by
      calc pre ++ sep ++ post = pre ++ (sep.dropLast ++ [sep.getLast hsep]) ++ post := by
            rw [List.dropLast_append_getLast hsep]
        _ = (p ++ sep ++ q) ++ sep.getLast hsep :: post := by
            rw [hpq]
            simp
        _ = p ++ sep ++ (q ++ sep.getLast hsep :: post) := List.append_assoc _ _ _
    have hshort := hfirst p _ hwhole
    have hlen := congrArg List.length hpq
    simp only [List.length_append] at hlen hlast
    omega
  · intro hno
    refine ⟨rfl,fun p q hpq => Nat.le_of_not_lt fun hlt => hno ?_⟩
    have hleft : p ++ sep <+: pre ++ sep ++ post := ⟨q,hpq.symm⟩
    have hright : pre ++ sep.dropLast <+: pre ++ sep ++ post := by
      refine ⟨sep.getLast hsep :: post,?_⟩
      rw [List.append_assoc,← List.singleton_append,← List.append_assoc sep.dropLast,
        List.dropLast_append_getLast hsep,List.append_assoc]
    have hle : (p ++ sep).length ≤ (pre ++ sep.dropLast).length := by
      simp only [List.length_append] at hlast ⊢
      omega
    exact (List.suffix_append p sep).isInfix.trans (List.prefix_of_prefix_length_le hleft hright hle).isInfix

theorem splitN_cut (h : s.dropInfix? sep = some (pre,post)) :
    splitN sep (n + 2) s = pre :: splitN sep (n + 1) post := by
  rw [splitN,h]

theorem splitN_whole (h : ¬sep <:+: s) : splitN sep (n + 1) s = [s] := by
  cases n with
  | zero => rfl
  | succ n => rw [splitN,dropInfix_eq_none.mpr h]

theorem splitAfterN_cut (h : s.dropInfix? sep = some (pre,post)) :
    splitAfterN sep (n + 2) s = (pre ++ sep) :: splitAfterN sep (n + 1) post := by
  rw [splitAfterN,h]

theorem splitAfterN_whole (h : ¬sep <:+: s) : splitAfterN sep (n + 1) s = [s] := by
  cases n with
  | zero => rfl
  | succ n => rw [splitAfterN,dropInfix_eq_none.mpr h]

theorem length_splitAfterN_pos (sep s : List α) (n : ℕ) : 0 < (splitAfterN sep (n + 1) s).length := by
  cases n with
  | zero => exact Nat.one_pos
  | succ n =>
    rw [splitAfterN]
    split
    · exact Nat.one_pos
    · exact Nat.succ_pos _

theorem split_whole (h : ¬sep <:+: s) : split sep s = [s] := splitN_whole h

omit [DecidableEq α] in
theorem length_apart (pre post : List α) (hsep : sep ≠ []) : ∃ n, (pre ++ sep ++ post).length = n + 1 := by
  have hpos := List.length_pos_iff.mpr hsep
  exact Nat.exists_eq_add_one.mpr (by simp only [List.length_append]; omega)

theorem split_cut (hsep : sep ≠ []) (h : s.dropInfix? sep = some (pre,post)) :
    ∃ pieces, split sep s = pre :: pieces := by
  obtain ⟨rfl,-⟩ := dropInfix_eq_some.mp h
  obtain ⟨n,hn⟩ := length_apart pre post hsep
  rw [split,hn,splitN_cut h]
  exact ⟨_,rfl⟩

theorem split_two (hsep : sep ≠ []) (hcut : ¬sep <:+: pre ++ sep.dropLast) (hpost : ¬sep <:+: post) :
    split sep (pre ++ sep ++ post) = [pre,post] := by
  obtain ⟨n,hn⟩ := length_apart pre post hsep
  rw [split,hn,splitN_cut ((dropInfix_first pre post hsep).mpr hcut),splitN_whole hpost]

theorem splitAfter_two (hsep : sep ≠ []) (hcut : ¬sep <:+: pre ++ sep.dropLast) (hpost : ¬sep <:+: post) :
    splitAfter sep (pre ++ sep ++ post) = [pre ++ sep,post] := by
  obtain ⟨n,hn⟩ := length_apart pre post hsep
  rw [splitAfter,hn,splitAfterN_cut ((dropInfix_first pre post hsep).mpr hcut),splitAfterN_whole hpost]

theorem splitAfter_more (hsep : sep ≠ []) (hcut : ¬sep <:+: pre ++ sep.dropLast) (hpost : sep <:+: post) :
    2 < (splitAfter sep (pre ++ sep ++ post)).length := by
  obtain ⟨p,q,hpq⟩ := dropInfix_of_infix hpost
  have hpos := List.length_pos_iff.mpr hsep
  obtain ⟨n,hn⟩ : ∃ n, (pre ++ sep ++ post).length = n + 2 := by
    have hlength := congrArg List.length (dropInfix_eq_some.mp hpq).1
    simp only [List.length_append] at hlength ⊢
    exact ⟨pre.length + sep.length + post.length - 2,by omega⟩
  rw [splitAfter,hn,splitAfterN_cut ((dropInfix_first pre post hsep).mpr hcut),splitAfterN_cut hpq]
  have hrest := length_splitAfterN_pos sep q n
  simp only [List.length_cons]
  omega

omit [DecidableEq α] in
theorem suffix_snoc (pre : List α) {a b : α} : pre ++ [a] <:+ s ++ [b] ↔ a = b ∧ pre <:+ s := by
  rw [List.suffix_concat_iff]
  simp only [List.append_eq_nil_iff,List.cons_ne_self,and_false,false_or]
  constructor
  · rintro ⟨t,ht,hs⟩
    obtain ⟨rfl,hab⟩ := List.append_inj' ht rfl
    exact ⟨(List.cons.inj hab).1,hs⟩
  · rintro ⟨rfl,hs⟩
    exact ⟨pre,rfl,hs⟩

omit [DecidableEq α] in
theorem infix_snoc (pre : List α) {a b : α} :
    pre ++ [a] <:+: s ++ [b] ↔ pre ++ [a] <:+: s ∨ a = b ∧ pre <:+ s := by
  rw [List.infix_concat_iff,suffix_snoc pre,or_comm]

def firstPiece (sep s : List α) : List α := (split sep s).headD []

theorem firstPiece_whole (h : ¬sep <:+: s) : firstPiece sep s = s := by
  rw [firstPiece,split_whole h]
  rfl

theorem firstPiece_cut (hsep : sep ≠ []) (h : s.dropInfix? sep = some (pre,post)) :
    firstPiece sep s = pre := by
  obtain ⟨pieces,hpieces⟩ := split_cut hsep h
  rw [firstPiece,hpieces]
  rfl

theorem firstPiece_eq_self (hsep : sep ≠ []) : firstPiece sep s = s ↔ ¬sep <:+: s := by
  refine ⟨fun h hinfix => ?_,firstPiece_whole⟩
  obtain ⟨p,q,hpq⟩ := dropInfix_of_infix hinfix
  rw [firstPiece_cut hsep hpq] at h
  have hlength := congrArg List.length (dropInfix_eq_some.mp hpq).1
  have hpos := List.length_pos_iff.mpr hsep
  simp only [List.length_append,h] at hlength
  omega

theorem firstPiece_eq_pre (hsep : sep ≠ []) :
    firstPiece sep (pre ++ sep ++ post) = pre ↔ ¬sep <:+: pre ++ sep.dropLast := by
  refine ⟨fun h => ?_,fun h => firstPiece_cut hsep ((dropInfix_first pre post hsep).mpr h)⟩
  obtain ⟨p,q,hpq⟩ := dropInfix_of_infix (s := pre ++ sep ++ post) ⟨pre,post,rfl⟩
  rw [firstPiece_cut hsep hpq] at h
  subst h
  obtain ⟨hwhole,-⟩ := dropInfix_eq_some.mp hpq
  obtain rfl := List.append_cancel_left hwhole
  exact (dropInfix_first p post hsep).mp hpq

omit [DecidableEq α] in
theorem cut_unique {a : α} {x y z w : List α} (hx : a ∉ x) (hy : a ∉ y) (h : x ++ a :: z = y ++ a :: w) :
    x = y ∧ z = w := by
  induction x generalizing y with
  | nil =>
    cases y with
    | nil => exact ⟨rfl,(List.cons.inj h).2⟩
    | cons b y => exact absurd ((List.cons.inj h).1 ▸ List.mem_cons_self) hy
  | cons b x ih =>
    cases y with
    | nil => exact absurd ((List.cons.inj h).1 ▸ List.mem_cons_self) hx
    | cons c y =>
      obtain ⟨rfl,htail⟩ := List.cons.inj h
      obtain ⟨rfl,hzw⟩ := ih (List.not_mem_of_not_mem_cons hx) (List.not_mem_of_not_mem_cons hy) htail
      exact ⟨rfl,hzw⟩

omit [DecidableEq α] in
theorem cut_last_unique {a : α} {x y z w : List α} (hz : a ∉ z) (hw : a ∉ w)
    (h : x ++ a :: z = y ++ a :: w) : x = y ∧ z = w := by
  have hrev : z.reverse ++ a :: x.reverse = w.reverse ++ a :: y.reverse := by
    simpa using congrArg List.reverse h
  obtain ⟨hzw,hxy⟩ := cut_unique (by simpa using hz) (by simpa using hw) hrev
  exact ⟨List.reverse_injective hxy,List.reverse_injective hzw⟩

end Jitsu.Lib
