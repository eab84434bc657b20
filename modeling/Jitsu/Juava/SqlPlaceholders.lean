import Jitsu.Juava.SqlParams

namespace Jitsu.Juava

open Lib

variable {V : Type}

def isWord (c : Char) : Bool := c.isAlphanum || c = '_'

def word (text : List Char) : List Char := text.takeWhile isWord

def afterWord (text : List Char) : List Char := text.dropWhile isWord

def wholeWord (names : List String) (text : List Char) : Option String :=
  if String.ofList (word text) ∈ names then some (String.ofList (word text)) else none

def colons : List Char → List (List Char)
  | [] => []
  | c :: rest => if c = ':' then rest :: colons rest else colons rest

structure Identifier (name : String) : Prop where
  nonempty : name ≠ ""
  word : ∀ c ∈ name.toList, isWord c

def expected (query : String) (params : Params V) : List Token :=
  tokens (wholeWord (params.entries.map Prod.fst)) 0 query.toList

structure Compiled (query : String) (params : Params V) (result : Positional V) (index : String → ℕ) :
    Prop where
  rendered : result.query =
    String.ofList ((expected query params).flatMap (render (fun name => (toString (index name)).toList)))
  placed : ∀ name ∈ used (expected query params), 1 ≤ index name ∧
    result.values[index name - 1]? = some (params.get name)
  once : Set.InjOn index {name | name ∈ used (expected query params)}
  length : result.values.length = (used (expected query params)).toFinset.card

structure ClearAt (names : List String) (text : List Char) : Prop where
  known : String.ofList (word text) ∈ names → String.ofList (word text) ∉ objectPrototype ∧
    ∀ name ∈ names.takeWhile (· ≠ String.ofList (word text)), ¬ name.toList <+: word text
  unknown : String.ofList (word text) ∉ names → ∀ name ∈ alternatives names, ¬ name.toList <+: word text

instance (names : List String) (text : List Char) : Decidable (ClearAt names text) :=
  decidable_of_iff
    ((String.ofList (word text) ∈ names → String.ofList (word text) ∉ objectPrototype ∧
      ∀ name ∈ names.takeWhile (· ≠ String.ofList (word text)), ¬ name.toList <+: word text) ∧
    (String.ofList (word text) ∉ names → ∀ name ∈ alternatives names, ¬ name.toList <+: word text))
    ⟨fun h => ⟨h.1,h.2⟩,fun h => ⟨h.known,h.unknown⟩⟩

section

variable {choose : List Char → Option String}

theorem tokens_skip (skip : ℕ) (text : List Char) :
    tokens choose skip text = tokens choose 0 (text.drop skip) := by
  induction text generalizing skip with
  | nil => cases skip <;> rfl
  | cons c rest ih =>
    cases skip with
    | zero => rfl
    | succ skip => exact ih skip

variable {c : Char}

theorem isWord_ne_colon (h : isWord c) : c ≠ ':' := by
  rintro rfl
  exact absurd h (by decide)

theorem tokens_plain (h : c ≠ ':') (rest : List Char) :
    tokens choose 0 (c :: rest) = .char c :: tokens choose 0 rest := by
  rw [tokens,if_neg h]

theorem tokens_word {letters : List Char} (h : ∀ c ∈ letters, isWord c) (rest : List Char) :
    tokens choose 0 (letters ++ rest) = letters.map .char ++ tokens choose 0 rest := by
  induction letters with
  | nil => rfl
  | cons c letters ih =>
    rw [List.cons_append,tokens_plain (isWord_ne_colon (h c List.mem_cons_self)),
      ih fun d hd => h d (List.mem_cons_of_mem _ hd)]
    rfl

theorem colons_word {letters : List Char} (h : ∀ c ∈ letters, isWord c) (rest : List Char) :
    colons (letters ++ rest) = colons rest := by
  induction letters with
  | nil => rfl
  | cons c letters ih =>
    rw [List.cons_append,colons,if_neg (isWord_ne_colon (h c List.mem_cons_self)),
      ih fun d hd => h d (List.mem_cons_of_mem _ hd)]

theorem word_append (text : List Char) : word text ++ afterWord text = text := List.takeWhile_append_dropWhile

variable {text : List Char}

theorem isWord_of_mem_word (h : c ∈ word text) :
    isWord c := List.mem_takeWhile_imp h

theorem colons_afterWord (text : List Char) : colons text = colons (afterWord text) := by
  have h : colons (word text ++ afterWord text) = colons (afterWord text) :=
    colons_word (fun c hc => isWord_of_mem_word hc) _
  rwa [word_append] at h

theorem text_induction {P : List Char → Prop} (nil : P [])
    (plain : ∀ c rest, c ≠ ':' → P rest → P (c :: rest))
    (colon : ∀ rest, P (afterWord rest) → P (':' :: rest)) (text : List Char) : P text := by
  induction hlen : text.length using Nat.strong_induction_on generalizing text with
  | _ n ih =>
    cases text with
    | nil => exact nil
    | cons c rest =>
      by_cases hc : c = ':'
      · have hshort : (afterWord rest).length ≤ rest.length := List.length_dropWhile_le _ _
        rw [List.length_cons] at hlen
        rw [hc]
        exact colon rest (ih _ (by omega) _ rfl)
      · exact plain c rest hc (ih _ (by rw [← hlen]; exact Nat.lt_succ_self _) rest rfl)

theorem used_chars (letters : List Char) (rest : List Token) :
    used (letters.map .char ++ rest) = used rest := by
  induction letters with
  | nil => rfl
  | cons c letters ih => exact ih

structure Names (choose : List Char → Option String) : Prop where
  within : ∀ {text name}, choose text = some name → name.toList <+: word text

theorem Names.tokens_some (hc : Names choose) {rest : List Char} {name : String}
    (h : choose rest = some name) :
    tokens choose 0 (':' :: rest) =
      .param name :: (((word rest).drop name.length).map .char ++ tokens choose 0 (afterWord rest)) := by
  have hlen : name.length ≤ (word rest).length := by
    rw [← String.length_toList]
    exact (hc.within h).length_le
  have hdrop : rest.drop name.length = (word rest).drop name.length ++ afterWord rest := by
    conv_lhs => rw [← word_append rest]
    exact List.drop_append_of_le_length hlen
  rw [tokens,if_pos rfl,h]
  dsimp only
  rw [tokens_skip,hdrop,tokens_word fun c hmem => isWord_of_mem_word (List.mem_of_mem_drop hmem)]

theorem tokens_none {rest : List Char} (h : choose rest = none) :
    tokens choose 0 (':' :: rest) = .char ':' ::
    ((word rest).map .char ++ tokens choose 0 (afterWord rest)) := by
  rw [tokens,if_pos rfl,h]
  rw [← tokens_word fun c hmem => isWord_of_mem_word hmem,word_append]

theorem tokens_congr {other : List Char → Option String}
    (h : ∀ rest ∈ colons text, choose rest = other rest) (skip : ℕ) :
    tokens choose skip text = tokens other skip text := by
  induction text generalizing skip with
  | nil => cases skip <;> rfl
  | cons c rest ih =>
    have hrest : ∀ r ∈ colons rest, choose r = other r := by
      intro r hr
      refine h r ?_
      rw [colons]
      split
      · exact List.mem_cons_of_mem _ hr
      · exact hr
    cases skip with
    | succ skip => exact ih hrest skip
    | zero =>
      have hhere : (if c = ':' then choose rest else none) = if c = ':' then other rest else none := by
        split
        case isTrue hcolon => exact h rest (by rw [colons,if_pos hcolon]; exact List.mem_cons_self)
        case isFalse => rfl
      rw [tokens,tokens,hhere]
      split
      · rw [ih hrest]
      · rw [ih hrest]

theorem Names.mem_used (hc : Names choose) {name : String} :
    name ∈ used (tokens choose 0 text) ↔ ∃ rest ∈ colons text, choose rest = some name := by
  induction text using text_induction with
  | nil => exact iff_of_false List.not_mem_nil fun ⟨_,hr,_⟩ => List.not_mem_nil hr
  | plain c rest hplain ih =>
    rw [tokens_plain hplain,colons,if_neg hplain]
    exact ih
  | colon rest ih =>
    rw [colons,if_pos rfl,colons_afterWord rest,List.exists_mem_cons_iff,← ih]
    cases hchoose : choose rest with
    | none =>
      rw [tokens_none hchoose]
      simp [used,used_chars]
    | some chosen =>
      rw [hc.tokens_some hchoose,used,used_chars,List.mem_cons,Option.some.injEq,eq_comm]

end

def rendered (choose : List Char → Option String) (label : String → List Char) (text : List Char) :
    List Char :=
  (tokens choose 0 text).flatMap (render label)

def Stops (text : List Char) : Prop := text.takeWhile isWord = []

section

variable {choose : List Char → Option String} {label : String → List Char}

theorem flatMap_chars (letters : List Char) (rest : List Token) :
    (letters.map Token.char ++ rest).flatMap (render label) = letters ++ rest.flatMap (render label) := by
  induction letters with
  | nil => rfl
  | cons c letters ih => exact congrArg (c :: ·) ih

theorem rendered_plain {c : Char} (h : c ≠ ':') (rest : List Char) :
    rendered choose label (c :: rest) = c :: rendered choose label rest := by
  unfold rendered
  rw [tokens_plain h]
  rfl

variable {rest : List Char}

theorem rendered_none (h : choose rest = none) :
    rendered choose label (':' :: rest) = ':' :: (word rest ++ rendered choose label (afterWord rest)) := by
  unfold rendered
  rw [tokens_none h,List.flatMap_cons,flatMap_chars]
  rfl

theorem Names.rendered_some (hc : Names choose) {name : String}
    (h : choose rest = some name) :
    rendered choose label (':' :: rest) = '$' :: (label name ++
      ((word rest).drop name.length ++ rendered choose label (afterWord rest))) := by
  unfold rendered
  rw [hc.tokens_some h,List.flatMap_cons,flatMap_chars]
  rfl

theorem stops_rendered {text : List Char} (h : Stops text) : Stops (rendered choose label text) := by
  cases text with
  | nil => rfl
  | cons c rest =>
    have hword : ¬ isWord c := by
      intro hw
      rw [Stops,List.takeWhile_cons_of_pos hw] at h
      cases h
    by_cases hcolon : c = ':'
    · subst hcolon
      unfold rendered
      rw [tokens,if_pos rfl]
      cases choose rest with
      | none => rfl
      | some name => rfl
    · rw [rendered_plain hcolon]
      exact List.takeWhile_cons_of_neg hword

theorem stops_afterWord (text : List Char) : Stops (afterWord text) := by
  unfold Stops afterWord
  cases h : text.dropWhile isWord with
  | nil => rfl
  | cons c rest =>
    have hc := List.head_dropWhile_not isWord (l := text) (by rw [h]; exact List.cons_ne_nil _ _)
    simp only [h,List.head_cons] at hc
    exact List.takeWhile_cons_of_neg (by simp [hc])

theorem takeWhile_stops {letters : List Char} (h : ∀ c ∈ letters, isWord c) (hr : Stops rest) :
    (letters ++ rest).takeWhile isWord = letters := by
  rw [List.takeWhile_append_of_pos h,hr,List.append_nil]

theorem cut_word {letters other tail : List Char} (hl : ∀ c ∈ letters, isWord c)
    (ho : ∀ c ∈ other, isWord c) (hr : Stops rest) (ht : Stops tail) (h : letters ++ rest = other ++ tail) :
    letters = other ∧ rest = tail := by
  have hword := congrArg (List.takeWhile isWord) h
  rw [takeWhile_stops hl hr,takeWhile_stops ho ht] at hword
  subst hword
  exact ⟨rfl,List.append_cancel_left h⟩

end

section

variable {code spec : List Char → Option String} {seen : List String} {index : String → ℕ}

inductive Aligned (code spec : List Char → Option String) (seen : List String) (index : String → ℕ)
    (rest : List Char) : Prop
  | unchanged : code rest = none → spec rest = none → Aligned code spec seen index rest
  | placed {name expected : String} : code rest = some name → spec rest = some expected →
      name ∉ objectPrototype →
      (toString (seen.idxOf name + 1)).toList ++ (word rest).drop name.length =
        (toString (index expected)).toList →
      Aligned code spec seen index rest

theorem isDigit_toString {n : ℕ} {c : Char} (h : c ∈ (toString n).toList) : c.isDigit := by
  have hlist : (toString n).toList = Nat.toDigits 10 n := String.toList_ofList
  rw [hlist] at h
  exact Nat.isDigit_of_mem_toDigits (by decide) le_rfl h

theorem isWord_toString {n : ℕ} {c : Char} (h : c ∈ (toString n).toList) : isWord c := by
  simp [isWord,Char.isAlphanum,isDigit_toString h]

theorem inheritedText_head (name : String) :
    ∃ c rest, (inheritedText name).toList = c :: rest ∧ ¬ c.isDigit := by
  unfold inheritedText
  split
  · exact ⟨_,_,rfl,by decide⟩
  · split
    · exact ⟨_,_,rfl,by decide⟩
    · rw [String.append_assoc,String.toList_append]
      exact ⟨_,_,rfl,by decide⟩

theorem inherited_not_digits (name : String) {rest tail : List Char} {n : ℕ} :
    (inheritedText name).toList ++ rest ≠ (toString n).toList ++ tail := by
  obtain ⟨c,more,htext,hc⟩ := inheritedText_head name
  have hlist : (toString n).toList = Nat.toDigits 10 n := String.toList_ofList
  intro h
  cases hd : (toString n).toList with
  | nil => exact Nat.toDigits_ne_nil (hlist.symm.trans hd)
  | cons d digits =>
    rw [htext,hd] at h
    have hdigit : d.isDigit := isDigit_toString (hd ▸ List.mem_cons_self)
    exact hc ((List.cons.inj h).1 ▸ hdigit)

theorem aligned (hcode : Names code) (hspec : Names spec)
    (hwhole : ∀ {text name}, spec text = some name → name.toList = word text) {text : List Char}
    (h : rendered code (label seen) text = rendered spec (fun name => (toString (index name)).toList) text) :
    ∀ rest ∈ colons text, Aligned code spec seen index rest := by
  induction text using text_induction with
  | nil => exact fun _ hr => absurd hr List.not_mem_nil
  | plain c rest hplain ih =>
    rw [rendered_plain hplain,rendered_plain hplain] at h
    rw [colons,if_neg hplain]
    exact ih (List.cons.inj h).2
  | colon rest ih =>
    rw [colons,if_pos rfl,colons_afterWord rest,List.forall_mem_cons]
    have hstops := stops_afterWord rest
    cases hc : code rest with
    | none =>
      cases hs : spec rest with
      | none =>
        rw [rendered_none hc,rendered_none hs] at h
        exact ⟨.unchanged hc hs,ih (List.append_cancel_left (List.cons.inj h).2)⟩
      | some expected =>
        rw [rendered_none hc,hspec.rendered_some hs] at h
        exact absurd (List.cons.inj h).1 (by decide)
    | some name =>
      cases hs : spec rest with
      | none =>
        rw [hcode.rendered_some hc,rendered_none hs] at h
        exact absurd (List.cons.inj h).1 (by decide)
      | some expected =>
        rw [hcode.rendered_some hc,hspec.rendered_some hs] at h
        have hbody := (List.cons.inj h).2
        have hwhole : (word rest).drop expected.length = [] := by
          rw [← hwhole hs,← String.length_toList]
          exact List.drop_length
        rw [hwhole,List.nil_append] at hbody
        have hplain : name ∉ objectPrototype := by
          intro hp
          rw [label,if_pos hp] at hbody
          exact inherited_not_digits name hbody
        rw [label,if_neg hplain,← List.append_assoc] at hbody
        have hletters : ∀ c ∈ (toString (seen.idxOf name + 1)).toList ++
          (word rest).drop name.length, isWord c := by
          intro c hmem
          rcases List.mem_append.mp hmem with hd | hw
          · exact isWord_toString hd
          · exact isWord_of_mem_word (List.mem_of_mem_drop hw)
        obtain ⟨hdigits,htail⟩ := cut_word hletters (fun c => isWord_toString) (stops_rendered hstops)
          (stops_rendered hstops) hbody
        exact ⟨.placed hc hs hplain hdigits,ih htail⟩

end

section

variable {names : List String} {text : List Char}

theorem prefix_word {letters : List Char} (h : ∀ c ∈ letters, isWord c) :
    letters <+: text ↔ letters <+: word text := by
  constructor
  · rintro ⟨rest,rfl⟩
    rw [word,List.takeWhile_append_of_pos h]
    exact List.prefix_append _ _
  · exact fun hp => hp.trans (List.takeWhile_prefix _)

theorem isPrefixOf_iff {letters : List Char} (h : ∀ c ∈ letters, isWord c) :
    letters.isPrefixOf text = true ↔ letters <+: word text := by
  rw [List.isPrefixOf_iff_prefix,prefix_word h]

variable {name : String}

theorem found_prefixes {candidates : List String}
    (h : candidates.find? (fun name => name.toList.isPrefixOf text) = some name) :
    name.toList.isPrefixOf text = true := by
  simpa using List.find?_some h

theorem word_word (text : List Char) : word (word text) = word text := by
  have h : (word text ++ []).takeWhile isWord = word text :=
    takeWhile_stops (fun c hc => isWord_of_mem_word hc) rfl
  rwa [List.append_nil] at h

theorem wholeWord_names : Names (wholeWord names) where
  within h := by
    unfold wholeWord at h
    split at h
    · cases h
      rw [String.toList_ofList]
    · cases h

theorem wholeWord_eq (h : wholeWord names text = some name) :
    name = String.ofList (word text) ∧ name ∈ names := by
  unfold wholeWord at h
  split at h
  case isTrue hin =>
    cases h
    exact ⟨rfl,hin⟩
  case isFalse => cases h

variable (hn : ∀ name ∈ names, Identifier name)

include hn

theorem alternatives_word (h : name ∈ alternatives names) : ∀ c ∈ name.toList, isWord c := by
  unfold alternatives at h
  split at h
  · rw [List.mem_singleton.mp h]
    exact nofun
  · exact (hn name h).word

theorem firstAlternative_names : Names (firstAlternative names) where
  within {text name} h := by
    have hmem := List.mem_of_find?_eq_some h
    exact (isPrefixOf_iff (alternatives_word hn hmem)).mp (found_prefixes h)

theorem firstAlternative_word : firstAlternative names text = firstAlternative names (word text) := by
  refine List.find?_congr fun name hmem => ?_
  rw [Bool.eq_iff_iff,isPrefixOf_iff (alternatives_word hn hmem),isPrefixOf_iff (alternatives_word hn hmem),
    word_word]

theorem clearAt_unknown (h : String.ofList (word text) ∉ names) :
    ClearAt names text ↔ firstAlternative names text = none := by
  rw [firstAlternative,List.find?_eq_none]
  constructor
  · intro hc name hmem hp
    exact hc.unknown h name hmem ((isPrefixOf_iff (alternatives_word hn hmem)).mp hp)
  · intro hnone
    exact ⟨fun hin => absurd hin h,fun _ name hmem hp =>
      hnone name hmem ((isPrefixOf_iff (alternatives_word hn hmem)).mpr hp)⟩

theorem firstAlternative_known (h : String.ofList (word text) ∈ names) :
    firstAlternative names text = some (String.ofList (word text)) ↔
      ∀ name ∈ names.takeWhile (· ≠ String.ofList (word text)), ¬ name.toList <+: word text := by
  have halternatives : alternatives names = names := if_neg (List.ne_nil_of_mem h)
  have hself : (String.ofList (word text)).toList.isPrefixOf text = true := by
    rw [isPrefixOf_iff (hn _ h).word,String.toList_ofList]
  obtain ⟨earlier,later,hnames,hfirst⟩ := List.eq_append_cons_of_mem h
  have htake : names.takeWhile (· ≠ String.ofList (word text)) = earlier := by
    rw [hnames,List.takeWhile_append_of_pos (fun name hmem => ?_),List.takeWhile_cons_of_neg (by simp),
      List.append_nil]
    exact decide_eq_true fun heq => hfirst (heq ▸ hmem)
  have hfind : firstAlternative names text = (earlier.find? (fun name => name.toList.isPrefixOf text)).or
      (some (String.ofList (word text))) := by
    unfold firstAlternative
    rw [halternatives]
    conv_lhs => rw [hnames]
    rw [List.find?_append,List.find?_cons,hself]
  have hword : ∀ name ∈ earlier, ∀ c ∈ name.toList, isWord c :=
    fun name hmem => (hn name (hnames ▸ List.mem_append_left _ hmem)).word
  rw [htake,hfind]
  cases hearlier : earlier.find? (fun name => name.toList.isPrefixOf text) with
  | none =>
    refine iff_of_true rfl fun name hmem hp => ?_
    exact List.find?_eq_none.mp hearlier name hmem ((isPrefixOf_iff (hword name hmem)).mpr hp)
  | some name =>
    have hmem := List.mem_of_find?_eq_some hearlier
    refine iff_of_false (fun heq => hfirst (Option.some.inj heq ▸ hmem)) fun hnone => ?_
    exact hnone name hmem ((isPrefixOf_iff (hword name hmem)).mp (found_prefixes hearlier))

theorem clearAt_known (h : String.ofList (word text) ∈ names) :
    ClearAt names text ↔ firstAlternative names text = some (String.ofList (word text)) ∧
      String.ofList (word text) ∉ objectPrototype := by
  rw [firstAlternative_known hn h]
  exact ⟨fun hc => ⟨(hc.known h).2,(hc.known h).1⟩,fun hc => ⟨fun _ => ⟨hc.2,hc.1⟩,fun hnot => absurd h hnot⟩⟩

end

theorem mem_used_of_mem {ts : List Token} {name : String} (h : .param name ∈ ts) : name ∈ used ts := by
  induction ts with
  | nil => cases h
  | cons t ts ih =>
    cases t with
    | char => exact ih (by simpa using h)
    | param other =>
      rcases List.mem_cons.mp h with heq | h
      · cases heq
        exact List.mem_cons_self
      · exact List.mem_cons_of_mem _ (ih h)

section

variable {query : String} {params : Params V}

theorem compiled_of_clear (hn : ∀ name ∈ params.entries.map Prod.fst, Identifier name)
    (h : ∀ rest ∈ colons query.toList, ClearAt (params.entries.map Prod.fst) rest) :
    ∃ index, Compiled query params (convertNamedQueryParameters query params) index := by
  have hchoice : ∀ rest ∈ colons query.toList,
      firstAlternative (params.entries.map Prod.fst) rest = wholeWord (params.entries.map Prod.fst) rest := by
    intro rest hrest
    unfold wholeWord
    split
    case isTrue hin => exact ((clearAt_known hn hin).mp (h rest hrest)).1
    case isFalse hout => exact (clearAt_unknown hn hout).mp (h rest hrest)
  have hplain : ∀ name ∈ used (expected query params), name ∉ objectPrototype := by
    intro name hname
    obtain ⟨rest,hrest,hwhole⟩ := wholeWord_names.mem_used.mp hname
    obtain ⟨rfl,hin⟩ := wholeWord_eq hwhole
    exact ((clearAt_known hn hin).mp (h rest hrest)).2
  have hparsed : parsed query params = expected query params := tokens_congr hchoice 0
  have hnumbered : numbered query params = firstUses (used (expected query params)) := by
    have hfilter : (used (expected query params)).filter (· ∉ objectPrototype) = used
      (expected query params) :=
      List.filter_eq_self.mpr fun name hname => decide_eq_true (hplain name hname)
    rw [numbered,hparsed,hfilter]
  have hlabel : ∀ t ∈ expected query params, render (label (numbered query params)) t =
      render (fun name => (toString ((numbered query params).idxOf name + 1)).toList) t := by
    intro t ht
    cases t with
    | char => rfl
    | param name =>
      have hout := hplain name (mem_used_of_mem ht)
      simp only [render,label,if_neg hout]
  have hmem : ∀ name ∈ used (expected query params), name ∈ numbered query params := by
    intro name hname
    rw [hnumbered]
    exact mem_firstUses.mpr hname
  refine ⟨fun name => (numbered query params).idxOf name + 1,?_,fun name hname => ⟨Nat.succ_pos _,?_⟩,?_,?_⟩
  · rw [convertNamedQueryParameters_eq,hparsed]
    exact congrArg String.ofList (List.flatMap_congr hlabel)
  · have hlt := List.idxOf_lt_length_of_mem (hmem name hname)
    rw [convertNamedQueryParameters_eq,Nat.add_sub_cancel,List.getElem?_map,List.getElem?_eq_getElem hlt,
      List.getElem_idxOf]
    rfl
  · intro name hname other hother heq
    exact (List.idxOf_inj (hmem name hname)).mp (Nat.succ.inj heq)
  · rw [convertNamedQueryParameters_eq,List.length_map,hnumbered,length_firstUses]

section

variable (hn : ∀ name ∈ params.entries.map Prod.fst, Identifier name) {index : String → ℕ}
  (h : Compiled query params (convertNamedQueryParameters query params) index)

include hn h

theorem compiled_aligned : ∀ rest ∈ colons query.toList, Aligned
    (firstAlternative (params.entries.map Prod.fst))
    (wholeWord (params.entries.map Prod.fst)) (numbered query params) index rest := by
  refine aligned (firstAlternative_names hn) wholeWord_names
    (fun hwhole => by rw [(wholeWord_eq hwhole).1,String.toList_ofList]) ?_
  have heq := h.rendered
  rw [convertNamedQueryParameters_eq] at heq
  exact String.ofList_injective heq

def chosen (params : Params V) (name : String) : String :=
  (firstAlternative (params.entries.map Prod.fst) name.toList).getD ""

structure Chosen (query : String) (params : Params V) (index : String → ℕ) (name : String) : Prop where
  found : firstAlternative (params.entries.map Prod.fst) name.toList = some (chosen params name)
  plain : chosen params name ∉ objectPrototype
  digits : (toString ((numbered query params).idxOf (chosen params name) + 1)).toList ++
    name.toList.drop (chosen params name).length = (toString (index name)).toList

theorem chosen_of_used {name : String} (hname : name ∈ used (expected query params)) :
    Chosen query params index name := by
  obtain ⟨rest,hrest,hwhole⟩ := wholeWord_names.mem_used.mp hname
  have hword : name.toList = word rest := by rw [(wholeWord_eq hwhole).1,String.toList_ofList]
  cases compiled_aligned hn h rest hrest with
  | unchanged _ hnone => cases hnone.symm.trans hwhole
  | @placed found wanted hfound hwanted hplain hdigits =>
    cases hwanted.symm.trans hwhole
    have hchoice : firstAlternative (params.entries.map Prod.fst) name.toList = some found := by
      rw [hword,← firstAlternative_word hn]
      exact hfound
    have hchosen : chosen params name = found := by rw [chosen,hchoice,Option.getD_some]
    rw [← hword] at hdigits
    exact ⟨hchosen ▸ hchoice,hchosen ▸ hplain,hchosen ▸ hdigits⟩

theorem numbered_toFinset :
    (numbered query params).toFinset = (used (expected query params)).toFinset.image (chosen params) := by
  have hcode := firstAlternative_names hn
  ext name
  rw [List.mem_toFinset,numbered,mem_firstUses,List.mem_filter,Finset.mem_image]
  constructor
  · rintro ⟨hused,-⟩
    obtain ⟨rest,hrest,hfound⟩ := hcode.mem_used.mp hused
    cases compiled_aligned hn h rest hrest with
    | unchanged hnone _ => cases hnone.symm.trans hfound
    | @placed found wanted hfound' hwanted _ _ =>
      refine ⟨wanted,List.mem_toFinset.mpr (wholeWord_names.mem_used.mpr ⟨rest,hrest,hwanted⟩),?_⟩
      rw [chosen,(wholeWord_eq hwanted).1,String.toList_ofList,← firstAlternative_word hn,hfound,
        Option.getD_some]
  · rintro ⟨wanted,hwanted,rfl⟩
    rw [List.mem_toFinset] at hwanted
    have hchosen := chosen_of_used hn h hwanted
    obtain ⟨rest,hrest,hwhole⟩ := wholeWord_names.mem_used.mp hwanted
    refine ⟨hcode.mem_used.mpr ⟨rest,hrest,?_⟩,decide_eq_true hchosen.plain⟩
    rw [firstAlternative_word hn,← hchosen.found,(wholeWord_eq hwhole).1,String.toList_ofList]

theorem chosen_eq {name : String} (hname : name ∈ used (expected query params)) :
    chosen params name = name := by
  have hlength : (numbered query params).length = (used (expected query params)).toFinset.card := by
    have heq := h.length
    rwa [convertNamedQueryParameters_eq,List.length_map] at heq
  have hnodup : (numbered query params).Nodup := nodup_firstUses _
  have hmem : ∀ name ∈ (used (expected query params)).toFinset, chosen params name ∈ numbered query params :=
    by
    intro name hname
    rw [← List.mem_toFinset,numbered_toFinset hn h]
    exact Finset.mem_image_of_mem _ hname
  have hinj : Set.InjOn (chosen params) (used (expected query params)).toFinset := by
    rw [← Finset.card_image_iff,← numbered_toFinset hn h,List.toFinset_card_of_nodup hnodup,hlength]
  have hnumber : ∀ name ∈ (used (expected query params)).toFinset,
      (numbered query params).idxOf (chosen params name) + 1 = index name := by
    refine numberings_eq ?_ ?_ (fun name hname => ?_) (fun name hname => ?_) (fun name hname => ?_)
    · intro name hname other hother heq
      exact hinj hname hother ((List.idxOf_inj (hmem name hname)).mp (Nat.succ.inj heq))
    · intro name hname other hother heq
      exact h.once (List.mem_toFinset.mp hname) (List.mem_toFinset.mp hother) heq
    · have hlt := List.idxOf_lt_length_of_mem (hmem name hname)
      rw [Finset.mem_Icc]
      omega
    · obtain ⟨hpos,hget⟩ := h.placed name (List.mem_toFinset.mp hname)
      have hlt := (List.getElem?_eq_some_iff.mp hget).1
      rw [h.length] at hlt
      rw [Finset.mem_Icc]
      omega
    · exact (toString_append_eq (Nat.succ_pos _) (chosen_of_used hn h (List.mem_toFinset.mp hname)).digits).1
  have hchosen := chosen_of_used hn h hname
  have hrest := (toString_append_eq (Nat.succ_pos _) hchosen.digits).2
    (hnumber name (List.mem_toFinset.mpr hname))
  obtain ⟨rest,-,hwhole⟩ := wholeWord_names.mem_used.mp hname
  have hword : word name.toList = name.toList := by
    rw [(wholeWord_eq hwhole).1,String.toList_ofList,word_word]
  have hprefixed : (chosen params name).toList <+: name.toList := by
    have hp := (firstAlternative_names hn).within hchosen.found
    rwa [hword] at hp
  rw [List.drop_eq_nil_iff,← String.length_toList] at hrest
  exact String.toList_injective (hprefixed.eq_of_length_le hrest)

theorem clear_of_compiled : ∀ rest ∈ colons query.toList, ClearAt (params.entries.map Prod.fst) rest := by
  intro rest hrest
  by_cases hin : String.ofList (word rest) ∈ params.entries.map Prod.fst
  · have hwhole : wholeWord (params.entries.map Prod.fst) rest = some (String.ofList (word rest)) := if_pos hin
    have hname : String.ofList (word rest) ∈ used (expected query params) :=
      wholeWord_names.mem_used.mpr ⟨rest,hrest,hwhole⟩
    have hchosen := chosen_of_used hn h hname
    rw [clearAt_known hn hin]
    refine ⟨?_,chosen_eq hn h hname ▸ hchosen.plain⟩
    have hfound := hchosen.found
    rw [String.toList_ofList,chosen_eq hn h hname] at hfound
    rw [firstAlternative_word hn]
    exact hfound
  · rw [clearAt_unknown hn hin]
    cases compiled_aligned hn h rest hrest with
    | unchanged hnone _ => exact hnone
    | placed _ hwanted _ _ => exact absurd (wholeWord_eq hwanted).2 ((wholeWord_eq hwanted).1 ▸ hin)

end

end

theorem named_parameters_compiled_iff (query : String) (params : Params V)
    (hn : ∀ name ∈ params.entries.map Prod.fst, Identifier name) :
    (∃ index, Compiled query params (namedParameters query (.named params)) index) ↔
      ∀ rest ∈ colons query.toList, ClearAt (params.entries.map Prod.fst) rest :=
  ⟨fun ⟨_,h⟩ => clear_of_compiled hn h,compiled_of_clear hn⟩

def sampleParams : Params ℕ := ⟨[("i",7),("id",1),("name",2)],by decide⟩

theorem sampleParams_identifiers : ∀ name ∈ sampleParams.entries.map Prod.fst, Identifier name := by
  intro name h
  have hname : name = "i" ∨ name = "id" ∨ name = "name" := by simpa [sampleParams] using h
  rcases hname with rfl | rfl | rfl
  · exact ⟨by decide,List.all_eq_true.mp (by decide)⟩
  · exact ⟨by decide,List.all_eq_true.mp (by decide)⟩
  · exact ⟨by decide,List.all_eq_true.mp (by decide)⟩

theorem named_parameters_compiled_sample :
    ∃ index, Compiled "a = :i OR b = :name OR c = :i" sampleParams
      (namedParameters "a = :i OR b = :name OR c = :i" (.named sampleParams)) index :=
  (named_parameters_compiled_iff _ _ sampleParams_identifiers).mpr (by decide +kernel)

theorem parameters_miscompiled :
    (namedParameters "id = :id" (.named sampleParams)).query = "id = $1d" ∧
    (namedParameters "id = :id" (.named sampleParams)).values = [some 7] ∧
    ¬ ∃ index, Compiled "id = :id" sampleParams (namedParameters "id = :id" (.named sampleParams)) index := by
  refine ⟨by decide +kernel,by decide +kernel,?_⟩
  rintro ⟨index,h⟩
  have hclear : ∀ rest ∈ colons "id = :id".toList, ClearAt (sampleParams.entries.map Prod.fst) rest :=
    clear_of_compiled sampleParams_identifiers h
  exact absurd hclear (by decide +kernel)

end Jitsu.Juava
