import Mathlib

namespace Jitsu.Lib

structure Node (α : Type) where
  next : Option ℕ
  prev : Option ℕ
  item : α

structure LinkedList (α : Type) where
  cells : List (Node α)
  front : Option ℕ
  back : Option ℕ

namespace LinkedList

variable {α : Type}

def empty : LinkedList α := ⟨[],none,none⟩

def pushBack (l : LinkedList α) (item : α) : LinkedList α :=
  let n := l.cells.length
  match l.back with
  | none => ⟨l.cells ++ [⟨none,none,item⟩],some n,some n⟩
  | some b => ⟨l.cells.modify b (fun c => {c with next := some n}) ++ [⟨none,some b,item⟩],l.front,some n⟩

def bypass (l : LinkedList α) (e : Node α) : LinkedList α :=
  let cut := match e.prev with
    | none => {l with front := e.next}
    | some p => {l with cells := l.cells.modify p (fun c => {c with next := e.next})}
  match e.next with
  | none => {cut with back := e.prev}
  | some n => {cut with cells := cut.cells.modify n (fun c => {c with prev := e.prev})}

def remove (l : LinkedList α) (a : ℕ) : LinkedList α :=
  match l.cells[a]? with
  | none => l
  | some e =>
    let cut := l.bypass e
    {cut with cells := cut.cells.modify a (fun c => {c with next := none,prev := none})}

def edit (l : LinkedList α) (a : ℕ) (f : α → α) : LinkedList α :=
  {l with cells := l.cells.modify a (fun c => {c with item := f c.item})}

def walkFrom (cells : List (Node α)) : ℕ → Option ℕ → Option (List α)
  | _,none => some []
  | 0,some _ => none
  | fuel + 1,some a => do
    let e ← cells[a]?
    let rest ← walkFrom cells fuel e.next
    some (e.item :: rest)

def walk (l : LinkedList α) : Option (List α) := walkFrom l.cells l.cells.length l.front

def tickets (es : List (ℕ × α)) : List ℕ := es.map Prod.fst

structure Linked (l : LinkedList α) (es : List (ℕ × α)) : Prop where
  nodup : (tickets es).Nodup
  front : l.front = (tickets es).head?
  back : l.back = (tickets es).getLast?
  cell : ∀ {p e q}, es = p ++ e :: q → l.cells[e.1]? = some ⟨(tickets q).head?,(tickets p).getLast?,e.2⟩

variable {l : LinkedList α} {es p q : List (ℕ × α)} {e : ℕ × α}

@[simp] theorem tickets_append : tickets (p ++ q) = tickets p ++ tickets q := List.map_append

@[simp] theorem tickets_cons : tickets (e :: q) = e.1 :: tickets q := rfl

@[simp] theorem tickets_nil : tickets ([] : List (ℕ × α)) = [] := rfl

@[simp] theorem length_pushBack (item : α) : (l.pushBack item).cells.length = l.cells.length + 1 := by
  unfold pushBack
  cases l.back <;> simp

@[simp] theorem length_remove (a : ℕ) : (l.remove a).cells.length = l.cells.length := by
  unfold remove bypass
  cases l.cells[a]? with
  | none => rfl
  | some e => rcases e with ⟨_ | n,_ | p,item⟩ <;> simp

@[simp] theorem length_edit (a : ℕ) (f : α → α) : (l.edit a f).cells.length = l.cells.length :=
  List.length_modify ..

theorem Linked.empty : Linked (empty : LinkedList α) [] := ⟨List.nodup_nil,rfl,rfl,by simp⟩

namespace Linked

theorem lt (h : l.Linked es) (he : e ∈ es) : e.1 < l.cells.length := by
  obtain ⟨p,q,hs⟩ := List.append_of_mem he
  by_contra hn
  rw [Nat.not_lt,← List.getElem?_eq_none_iff,h.cell hs] at hn
  cases hn

theorem length_le (h : l.Linked es) : es.length ≤ l.cells.length := by
  have hsub : tickets es ⊆ List.range l.cells.length := by
    intro a ha
    obtain ⟨e,he,rfl⟩ := List.mem_map.mp ha
    exact List.mem_range.mpr (h.lt he)
  simpa [tickets] using (h.nodup.subperm hsub).length_le

theorem next_iff (h : (tickets (p ++ e :: q)).Nodup) :
    some e.1 = (tickets (p ++ e :: q)).getLast? ↔ q = [] := by
  constructor
  · intro hl
    rcases List.eq_nil_or_concat q with rfl | ⟨q,x,rfl⟩
    · rfl
    · simp only [tickets_append,tickets_cons,List.nodup_append,List.nodup_cons] at h
      simp [List.getLast?_append,List.getLast?_cons] at hl
      exact absurd (by simp [hl]) h.2.1.1
  · rintro rfl
    simp

theorem pushBack (h : l.Linked es) (item : α) : (l.pushBack item).Linked (es ++ [(l.cells.length,item)]) := by
  have hnew : l.cells.length ∉ tickets es := by
    intro hm
    obtain ⟨e,he,hlength⟩ := List.mem_map.mp hm
    exact absurd (h.lt he) (by omega)
  have hcells (a : ℕ) (ha : a < l.cells.length) : (l.pushBack item).cells[a]? =
      l.cells[a]?.map (fun c => if l.back = some a then {c with next := some l.cells.length} else c) := by
    unfold LinkedList.pushBack
    cases hb : l.back with
    | none => simp [List.getElem?_append_left ha]
    | some b =>
      rw [List.getElem?_append_left (by simpa using ha),List.getElem?_modify]
      simp
  have hlast : (l.pushBack item).cells[l.cells.length]? = some ⟨none,l.back,item⟩ := by
    unfold LinkedList.pushBack
    cases hb : l.back <;> simp
  refine ⟨?_,?_,?_,?_⟩
  · rw [tickets_append]
    refine List.nodup_append.mpr ⟨h.nodup,by simp,?_⟩
    rintro a ha b hb rfl
    have hlength : a = l.cells.length := List.mem_singleton.mp hb
    exact hnew (hlength ▸ ha)
  · unfold LinkedList.pushBack
    cases hb : l.back with
    | none =>
      have hnil := List.getLast?_eq_none_iff.mp (h.back.symm.trans hb)
      simp [hnil]
    | some b =>
      have hne : tickets es ≠ [] := fun hnil => by simp [h.back,hnil] at hb
      simp [h.front,List.head?_append,Option.or_of_isSome,hne]
  · unfold LinkedList.pushBack
    cases hb : l.back <;> simp
  · intro p e q hs
    rcases List.eq_nil_or_concat q with rfl | ⟨q,x,rfl⟩
    · obtain ⟨rfl,he⟩ := List.append_inj' hs rfl
      cases he
      rw [hlast,h.back]
      rfl
    · rw [List.concat_eq_append,← List.cons_append,← List.append_assoc] at hs
      obtain ⟨rfl,hx⟩ := List.append_inj' hs rfl
      cases hx
      rw [hcells e.1 (h.lt (by simp)),h.cell rfl,h.back]
      by_cases hq : q = []
      · subst hq
        simp
      · have hnot : ¬ (tickets (p ++ e :: q)).getLast? = some e.1 :=
          fun hl => hq ((next_iff h.nodup).mp hl.symm)
        rw [Option.map_some,if_neg hnot]
        cases q with
        | nil => exact absurd rfl hq
        | cons y q => rfl

def around (e : ℕ × α) (next prev : List (ℕ × α)) (j : ℕ) (d : Node α) : Node α :=
  if e.1 = j then ⟨none,none,d.item⟩
  else ⟨if (tickets prev).getLast? = some j then (tickets next).head? else d.next,
    if (tickets next).head? = some j then (tickets prev).getLast? else d.prev,d.item⟩

variable {r : List (ℕ × α)} {x : ℕ × α}

theorem remove_cells (h : l.Linked (p ++ e :: q)) (j : ℕ) :
    (l.remove e.1).cells[j]? = l.cells[j]?.map (around e q p j) := by
  unfold LinkedList.remove bypass around
  rw [h.cell rfl]
  cases (tickets q).head? <;> cases (tickets p).getLast? <;>
  · simp only [List.getElem?_modify]
    cases l.cells[j]? with
    | none => rfl
    | some d => by_cases ha : e.1 = j <;> simp [ha] <;> split_ifs <;> simp

theorem remove_ends {c : Node α} {a : ℕ} (h : l.cells[a]? = some c) :
    (l.remove a).front = (if c.prev = none then c.next else l.front) ∧
    (l.remove a).back = (if c.next = none then c.prev else l.back) := by
  unfold LinkedList.remove bypass
  rw [h]
  rcases c with ⟨_ | n,_ | p,item⟩ <;> exact ⟨rfl,rfl⟩

theorem remove_after (h : l.Linked (p ++ e :: (r ++ x :: q))) :
    l.cells[x.1]?.map (around e (r ++ x :: q) p x.1) =
      some ⟨(tickets q).head?,(tickets (p ++ r)).getLast?,x.2⟩ := by
  have hcell : l.cells[x.1]? = some ⟨(tickets q).head?,(tickets (p ++ e :: r)).getLast?,x.2⟩ :=
    h.cell (by simp)
  have hnodup := h.nodup
  simp only [tickets_append,tickets_cons,List.nodup_append,List.nodup_cons,List.mem_cons,
    List.mem_append] at hnodup
  have hne : e.1 ≠ x.1 := fun heq => hnodup.2.1.1 (.inr (.inl heq))
  have hprev : (tickets p).getLast? ≠ some x.1 := fun hl =>
    hnodup.2.2 x.1 (List.mem_of_getLast? hl) x.1 (.inr (.inr (.inl rfl))) rfl
  rw [hcell,Option.map_some,around,if_neg hne,if_neg hprev]
  cases r with
  | nil => simp
  | cons y r =>
    have hy : y.1 ≠ x.1 := fun heq => hnodup.2.1.2.2.2 y.1 (by simp) x.1 (.inl rfl) heq
    simp [hy,List.getLast?_append,List.getLast?_cons]

theorem remove_before (h : l.Linked ((p ++ x :: r) ++ e :: q)) :
    l.cells[x.1]?.map (around e q (p ++ x :: r) x.1) =
      some ⟨(tickets (r ++ q)).head?,(tickets p).getLast?,x.2⟩ := by
  have hcell : l.cells[x.1]? = some ⟨(tickets (r ++ e :: q)).head?,(tickets p).getLast?,x.2⟩ :=
    h.cell (by simp)
  have hnodup := h.nodup
  rw [tickets_append,List.nodup_append,tickets_cons] at hnodup
  have hx : x.1 ∈ tickets (p ++ x :: r) := by simp
  have hne : e.1 ≠ x.1 := fun heq => hnodup.2.2 x.1 hx e.1 List.mem_cons_self heq.symm
  have hnext : (tickets q).head? ≠ some x.1 := fun hh =>
    hnodup.2.2 x.1 hx x.1 (List.mem_cons_of_mem _ (List.mem_of_mem_head? hh)) rfl
  rw [hcell,Option.map_some,around,if_neg hne,if_neg hnext]
  cases r with
  | nil =>
    rw [if_pos ((next_iff hnodup.1).mpr rfl).symm]
    rfl
  | cons y r =>
    have hlast : (tickets (p ++ x :: y :: r)).getLast? ≠ some x.1 := fun hl =>
      absurd ((next_iff hnodup.1).mp hl.symm) (List.cons_ne_nil y r)
    rw [if_neg hlast]
    rfl

theorem remove (h : l.Linked (p ++ e :: q)) : (l.remove e.1).Linked (p ++ q) := by
  have hcell := h.cell rfl
  have hnodup := h.nodup
  simp only [tickets_append,tickets_cons,List.nodup_append,List.nodup_cons,List.mem_cons] at hnodup
  obtain ⟨hp,⟨heq,hq⟩,hapart⟩ := hnodup
  obtain ⟨hfront,hback⟩ := remove_ends hcell
  refine ⟨?_,?_,?_,?_⟩
  · rw [tickets_append]
    exact List.nodup_append.mpr ⟨hp,hq,fun a ha b hb => hapart a ha b (.inr hb)⟩
  · rw [hfront,h.front]
    rcases p with _ | ⟨x,p⟩ <;> simp
  · rw [hback,h.back]
    rcases q with _ | ⟨y,q⟩ <;> simp [List.getLast?_append,List.getLast?_cons]
  · intro before x after hs
    rw [remove_cells h x.1]
    rcases List.append_eq_append_iff.mp hs with ⟨r,rfl,rfl⟩ | ⟨_ | ⟨y,r⟩,rfl,htail⟩
    · exact h.remove_after
    · rw [List.nil_append] at htail
      subst htail
      rw [List.append_nil] at h ⊢
      exact (h.remove_after (r := [])).trans (by rw [List.append_nil])
    · cases htail
      exact h.remove_before

theorem edit (h : l.Linked es) (a : ℕ) (f : α → α) :
    (l.edit a f).Linked (es.map fun e => if e.1 = a then (e.1,f e.2) else e) := by
  have htickets (xs : List (ℕ × α)) : tickets
    (xs.map fun e => if e.1 = a then (e.1,f e.2) else e) = tickets xs := by
    unfold tickets
    rw [List.map_map]
    refine List.map_congr_left fun e _ => ?_
    simp only [Function.comp_apply]
    split <;> rfl
  refine ⟨(htickets es).symm ▸ h.nodup,by rw [htickets]; exact h.front,by rw [htickets]; exact h.back,?_⟩
  intro p x q hs
  obtain ⟨p,tail,rfl,rfl,htail⟩ := List.map_eq_append_iff.mp hs
  obtain ⟨e,q,rfl,rfl,rfl⟩ := List.map_eq_cons_iff.mp htail
  have hcell := h.cell rfl
  unfold LinkedList.edit
  rw [htickets,htickets]
  by_cases ha : e.1 = a
  · subst ha
    simp [hcell]
  · have hne : a ≠ e.1 := fun heq => ha heq.symm
    simp [hcell,ha,hne]

theorem walkFrom_eq (h : l.Linked (p ++ q)) {fuel : ℕ} (hf : q.length ≤ fuel) :
    walkFrom l.cells fuel (tickets q).head? = some (q.map Prod.snd) := by
  induction q generalizing p fuel with
  | nil => cases fuel <;> rfl
  | cons e q ih =>
    obtain ⟨fuel,rfl⟩ := Nat.exists_eq_add_of_le' hf
    have hnext : l.Linked ((p ++ [e]) ++ q) := by simpa using h
    have hrest := ih hnext (Nat.le_add_left q.length fuel)
    rw [tickets_cons,List.head?_cons,List.length_cons,← Nat.add_assoc,walkFrom,h.cell rfl]
    simp [hrest]

theorem walk (h : l.Linked es) : l.walk = some (es.map Prod.snd) := by
  unfold LinkedList.walk
  rw [h.front]
  exact walkFrom_eq (p := []) h h.length_le

end Linked

end LinkedList

end Jitsu.Lib
