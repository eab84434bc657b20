import Jitsu.Lib.Text
import Jitsu.Lib.OrderedMap
import Jitsu.Lib.FirstUse

namespace Jitsu.Juava

open Lib

variable {V : Type}

abbrev Params (V : Type) := OrderedMap String V

inductive SqlQueryParameters (V : Type) where
  | positional (values : List (Option V))
  | named (params : Params V)

structure Positional (V : Type) where
  query : String
  values : List (Option V)

structure Match where
  index : ℕ
  name : String
deriving DecidableEq

def alternatives (names : List String) : List String := if names = [] then [""] else names

def firstAlternative (names : List String) (text : List Char) : Option String :=
  (alternatives names).find? (fun name => name.toList.isPrefixOf text)

def matchAll (choose : List Char → Option String) : ℕ → ℕ → List Char → List Match
  | _, _, [] => []
  | index, skip + 1, _ :: rest => matchAll choose (index + 1) skip rest
  | index, 0, c :: rest =>
    match if c = ':' then choose rest else none with
    | some name => ⟨index,name⟩ :: matchAll choose (index + 1) name.length rest
    | none => matchAll choose (index + 1) 0 rest

def substring (text : List Char) (first last : ℕ) : List Char := (text.take last).drop first

structure Conversion (V : Type) where
  prevIndex : ℕ
  paramsIndex : ℕ
  paramsArray : List (Option V)
  queryParts : List (List Char)
  indexCache : List (String × ℕ)

def inheritedText (name : String) : String :=
  if name = "__proto__" then "[object Object]"
  else if name = "constructor" then "function Object() \x7b [native code] \x7d"
  else "function " ++ name ++ "() \x7b [native code] \x7d"

def Conversion.convert (text : List Char) (params : Params V) (s : Conversion V) (m : Match) : Conversion V :=
  let queryParts := s.queryParts ++ [substring text s.prevIndex m.index]
  let prevIndex := m.index + m.name.length + 1
  match Entries.find m.name s.indexCache with
  | some paramIndex =>
    {s with prevIndex, queryParts := queryParts ++ [('$' :: (toString paramIndex).toList)]}
  | none =>
    if m.name ∈ objectPrototype then
      {s with prevIndex, queryParts := queryParts ++ [('$' :: (inheritedText m.name).toList)]}
    else
      { prevIndex
        paramsIndex := s.paramsIndex + 1
        paramsArray := s.paramsArray ++ [params.get m.name]
        queryParts := queryParts ++ [('$' :: (toString s.paramsIndex).toList)]
        indexCache := Entries.put m.name s.paramsIndex s.indexCache }

def convertNamedQueryParameters (parameterizedSql : String) (params : Params V) : Positional V :=
  let text := parameterizedSql.toList
  let matched := matchAll (firstAlternative (params.entries.map Prod.fst)) 0 0 text
  let s := matched.foldl (Conversion.convert text params) ⟨0,1,[],[],[]⟩
  ⟨String.ofList (s.queryParts ++ [text.drop s.prevIndex]).flatten,s.paramsArray⟩

def namedParameters (query : String) (values : SqlQueryParameters V) : Positional V :=
  match values with
  | .positional values => ⟨query,values⟩
  | .named params => convertNamedQueryParameters query params

inductive Token where
  | char (c : Char)
  | param (name : String)
deriving DecidableEq

def tokens (choose : List Char → Option String) : ℕ → List Char → List Token
  | _, [] => []
  | skip + 1, _ :: rest => tokens choose skip rest
  | 0, c :: rest =>
    match if c = ':' then choose rest else none with
    | some name => .param name :: tokens choose name.length rest
    | none => .char c :: tokens choose 0 rest

def render (label : String → List Char) : Token → List Char
  | .char c => [c]
  | .param name => '$' :: label name

def used : List Token → List String
  | [] => []
  | .char _ :: rest => used rest
  | .param name :: rest => name :: used rest

def note (seen : List String) (name : String) : List String :=
  if name ∈ objectPrototype then seen else enlist seen name

def label (seen : List String) (name : String) : List Char :=
  if name ∈ objectPrototype then (inheritedText name).toList else (toString (seen.idxOf name + 1)).toList

variable {seen : List String}

theorem label_note {name : String} (other : String)
    (h : name ∈ objectPrototype ∨ name ∈ seen) : label (note seen other) name = label seen name := by
  unfold label note
  split
  · rfl
  case isFalse hp =>
    split
    · rfl
    · rw [idxOf_enlist (h.resolve_left hp)]

theorem label_foldl_note {names : List String} {name : String}
    (h : name ∈ objectPrototype ∨ name ∈ seen) : label (names.foldl note seen) name = label seen name := by
  induction names generalizing seen with
  | nil => rfl
  | cons other names ih =>
    have hnoted : name ∈ objectPrototype ∨ name ∈ note seen other := by
      refine h.imp_right fun hs => ?_
      unfold note
      split
      · exact hs
      · exact mem_enlist.mpr (.inl hs)
    rw [List.foldl_cons,ih hnoted,label_note other h]

theorem noted (seen : List String) (name : String) : name ∈ objectPrototype ∨ name ∈ note seen name := by
  by_cases hp : name ∈ objectPrototype
  · exact .inl hp
  · rw [note,if_neg hp]
    exact .inr (mem_enlist.mpr (.inr rfl))

theorem foldl_note (seen names : List String) :
    names.foldl note seen = (names.filter (· ∉ objectPrototype)).foldl enlist seen := by
  induction names generalizing seen with
  | nil => rfl
  | cons name names ih =>
    rw [List.foldl_cons,ih,note]
    by_cases hp : name ∈ objectPrototype
    · rw [if_pos hp,List.filter_cons_of_neg (by simpa using hp)]
    · rw [if_neg hp,List.filter_cons_of_pos (by simpa using hp),List.foldl_cons]

structure Caches (params : Params V) (seen : List String) (s : Conversion V) : Prop where
  paramsIndex : s.paramsIndex = seen.length + 1
  paramsArray : s.paramsArray = seen.map params.get
  indexCache : ∀ name, Entries.find name s.indexCache =
    if name ∈ seen then some (seen.idxOf name + 1) else none
  plain : ∀ name ∈ seen, name ∉ objectPrototype

structure Converts (text : List Char) (params : Params V) (seen : List String) (m : Match)
    (s next : Conversion V) : Prop where
  caches : Caches params (note seen m.name) next
  prevIndex : next.prevIndex = m.index + m.name.length + 1
  queryParts : next.queryParts =
    s.queryParts ++ [substring text s.prevIndex m.index] ++ ['$' :: label (note seen m.name) m.name]

theorem Caches.convert {params : Params V} {s : Conversion V} (h : Caches params seen s)
    (text : List Char) (m : Match) : Converts text params seen m s (s.convert text params m) := by
  have hcache := h.indexCache m.name
  unfold Conversion.convert
  dsimp only
  by_cases hs : m.name ∈ seen
  · have hplain := h.plain _ hs
    rw [if_pos hs] at hcache
    have hnote : note seen m.name = seen := by rw [note,if_neg hplain,enlist_of_mem hs]
    rw [hcache]
    dsimp only
    refine ⟨?_,rfl,?_⟩
    · rw [hnote]
      exact ⟨h.paramsIndex,h.paramsArray,h.indexCache,h.plain⟩
    · rw [hnote,label,if_neg hplain]
  · rw [if_neg hs] at hcache
    rw [hcache]
    dsimp only
    by_cases hp : m.name ∈ objectPrototype
    · have hnote : note seen m.name = seen := by rw [note,if_pos hp]
      rw [if_pos hp]
      refine ⟨?_,rfl,?_⟩
      · rw [hnote]
        exact ⟨h.paramsIndex,h.paramsArray,h.indexCache,h.plain⟩
      · rw [label,if_pos hp]
    · have hnote : note seen m.name = seen ++ [m.name] := by rw [note,if_neg hp,enlist_of_not_mem hs]
      have hindex : (seen ++ [m.name]).idxOf m.name = seen.length := by
        rw [List.idxOf_append_of_notMem hs]
        simp
      rw [if_neg hp]
      refine ⟨?_,rfl,?_⟩
      · rw [hnote]
        refine ⟨by simp [h.paramsIndex],by simp [h.paramsArray],fun name => ?_,fun name hn => ?_⟩
        · rw [Entries.find_put,h.paramsIndex]
          by_cases hname : m.name = name
          · subst hname
            rw [if_pos rfl,if_pos (by simp),hindex]
          · rw [if_neg hname,h.indexCache]
            by_cases hin : name ∈ seen
            · rw [if_pos hin,if_pos (List.mem_append_left _ hin),List.idxOf_append_of_mem hin]
            · rw [if_neg hin,if_neg (by simp [hin,Ne.symm hname])]
        · rcases List.mem_append.mp hn with hin | hin
          · exact h.plain name hin
          · rw [List.mem_singleton.mp hin]
            exact hp
      · rw [hnote,label,if_neg hp,hindex,h.paramsIndex]

theorem substring_snoc {text rest : List Char} {first index : ℕ} {c : Char} (hf : first ≤ index)
    (h : text.drop index = c :: rest) :
    substring text first (index + 1) = substring text first index ++ [c] := by
  have hi : index < text.length := by
    by_contra hn
    rw [List.drop_eq_nil_of_le (by omega)] at h
    cases h
  have hget : text[index] = c := by
    have := List.getElem_cons_drop hi
    rw [h] at this
    exact (List.cons.inj this).1
  unfold substring
  rw [List.take_add_one,List.getElem?_eq_getElem hi,hget,List.drop_append_of_le_length (by simp; omega)]
  rfl

theorem substring_done {text : List Char} {first index : ℕ} (h : index ≤ first) :
    substring text first index = [] :=
  List.drop_eq_nil_of_le (by simp; omega)

structure Completes (text : List Char) (params : Params V) (seen : List String) (rest : List Token)
    (sofar : List Char) (s : Conversion V) : Prop where
  caches : Caches params ((used rest).foldl note seen) s
  query : (s.queryParts ++ [text.drop s.prevIndex]).flatten =
    sofar ++ rest.flatMap (render (label ((used rest).foldl note seen)))

theorem matchAll_completes (choose : List Char → Option String) (text : List Char) (params : Params V)
    {rest : List Char} {index skip : ℕ} (hrest : text.drop index = rest)
    {s : Conversion V} (hs : Caches params seen s)
    (hprev : s.prevIndex = index + skip ∨ skip = 0 ∧ s.prevIndex ≤ index) :
    Completes text params seen (tokens choose skip rest)
      (s.queryParts.flatten ++ substring text s.prevIndex index)
      ((matchAll choose index skip rest).foldl (Conversion.convert text params) s) := by
  induction rest generalizing index skip seen s with
  | nil =>
    have hend : substring text s.prevIndex index = text.drop s.prevIndex := by
      rw [substring,List.take_of_length_le (List.drop_eq_nil_iff.mp hrest)]
    refine ⟨?_,?_⟩
    · cases skip <;> exact hs
    · cases skip <;> simp [matchAll,tokens,used,hend]
  | cons c rest ih =>
    have hnext : text.drop (index + 1) = rest := by rw [← List.drop_drop,hrest,List.drop_one,List.tail_cons]
    cases skip with
    | succ skip =>
      have hskip : s.prevIndex = index + 1 + skip := by
        rcases hprev with h | ⟨h,-⟩
        · omega
        · cases h
      have := ih hnext hs (.inl hskip)
      rw [substring_done (by omega)] at this ⊢
      exact this
    | zero =>
      have hle : s.prevIndex ≤ index := by
        rcases hprev with h | ⟨-,h⟩
        · exact h.le
        · exact h
      cases hm : (if c = ':' then choose rest else none) with
      | none =>
        have hstep := ih hnext hs (.inr ⟨rfl,Nat.le_succ_of_le hle⟩)
        rw [substring_snoc hle hrest] at hstep
        simp only [matchAll,tokens,hm]
        refine ⟨hstep.caches,?_⟩
        rw [hstep.query]
        simp [used,render]
      | some name =>
        have hconv := hs.convert text ⟨index,name⟩
        have hprevIndex : (s.convert text params ⟨index,name⟩).prevIndex = index + 1 + name.length :=
          hconv.prevIndex.trans (by dsimp only; omega)
        have hstep := ih hnext hconv.caches (.inl hprevIndex)
        rw [substring_done (by omega),hconv.queryParts] at hstep
        have hlabel : label (note seen name) name =
            label ((used (tokens choose name.length rest)).foldl note (note seen name)) name :=
          (label_foldl_note (noted seen name)).symm
        simp only [matchAll,tokens,hm,List.foldl_cons]
        refine ⟨hstep.caches,?_⟩
        rw [hstep.query,hlabel]
        simp [used,render]

def parsed (query : String) (params : Params V) : List Token :=
  tokens (firstAlternative (params.entries.map Prod.fst)) 0 query.toList

def numbered (query : String) (params : Params V) : List String :=
  firstUses ((used (parsed query params)).filter (· ∉ objectPrototype))

theorem convertNamedQueryParameters_eq (query : String) (params : Params V) :
    convertNamedQueryParameters query params =
      ⟨String.ofList ((parsed query params).flatMap (render (label (numbered query params)))),
        (numbered query params).map params.get⟩ := by
  have hstart : Caches params [] (⟨0,1,[],[],[]⟩ : Conversion V) := ⟨rfl,rfl,fun _ => rfl,nofun⟩
  have hdone := matchAll_completes (firstAlternative (params.entries.map Prod.fst)) query.toList params
    List.drop_zero hstart (.inl (Nat.zero_add 0).symm)
  have hseen : (used (parsed query params)).foldl note [] = numbered query params :=
    foldl_note [] (used (parsed query params))
  unfold convertNamedQueryParameters
  dsimp only
  rw [hdone.query,hdone.caches.paramsArray]
  change Positional.mk (String.ofList (_ ++ (parsed query params).flatMap _)) _ = _
  rw [← hseen]
  rfl

end Jitsu.Juava
