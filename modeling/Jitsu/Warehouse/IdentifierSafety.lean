import Jitsu.Warehouse.Identifiers
import Jitsu.Lib.Text

namespace Jitsu.Warehouse.Identifiers

open Lib

variable {letters : Letters} {md5 : Text → Fin 16 → Fin 256} {maxLength : ℕ} {text : Text} {c : Char}

theorem toNat_lt_of_isAlpha (h : c.isAlpha = true) : c.toNat < 128 := by
  rw [Char.isAlpha,Bool.or_eq_true,Char.isUpper,Char.isLower] at h
  simp only [ge_iff_le,Bool.and_eq_true,decide_eq_true_eq] at h
  rcases h with ⟨_,h⟩ | ⟨_,h⟩
  · exact lt_of_le_of_lt h (by decide)
  · exact lt_of_le_of_lt h (by decide)

theorem supported_of_isWordChar (h : isWordChar c = true) : supported letters c = true := by
  rw [isWordChar,Char.isAlphanum,Bool.or_eq_true,Bool.or_eq_true] at h
  rcases h with (halpha | hdigit) | hunder
  · have hletter : letters.isLetter c = true := (letters.ascii c (toNat_lt_of_isAlpha halpha)).trans halpha
    simp [supported,hletter]
  · simp [supported,hdigit]
  · simp [supported,beq_iff_eq.mp hunder]

theorem supported_quote : supported letters '"' = false := by
  have hletter : letters.isLetter '"' = false := letters.ascii _ (by decide)
  simp [supported,hletter]

theorem supported_backquote : supported letters '\x60' = false := by
  have hletter : letters.isLetter '\x60' = false := letters.ascii _ (by decide)
  simp [supported,hletter]

theorem mem_replaceRuns {bad : Char → Bool} {inRun : Bool} (h : c ∈ replaceRuns bad inRun text) :
    bad c = false ∨ c = '_' := by
  induction text generalizing inRun with
  | nil => cases h
  | cons d text ih =>
    rw [replaceRuns] at h
    split at h
    · split at h
      · exact ih h
      · rcases List.mem_cons.mp h with rfl | h
        · exact .inr rfl
        · exact ih h
    · next hd =>
      rcases List.mem_cons.mp h with rfl | h
      · exact .inl (Bool.not_eq_true _ ▸ hd)
      · exact ih h

theorem replaceRuns_of_good {bad : Char → Bool} {inRun : Bool} (h : ∀ c ∈ text, bad c = false) :
    replaceRuns bad inRun text = text := by
  induction text generalizing inRun with
  | nil => rfl
  | cons d text ih =>
    obtain ⟨hd,hrest⟩ := List.forall_mem_cons.mp h
    rw [replaceRuns,hd,if_neg Bool.false_ne_true,ih hrest]

theorem mem_hexText {bytes : List (Fin 256)} (h : c ∈ hexText bytes) :
    c.isLower = true ∨ c.isDigit = true := by
  obtain ⟨b,_,hc⟩ := List.mem_flatMap.mp h
  simp only [List.mem_cons,List.not_mem_nil,or_false] at hc
  rcases hc with rfl | rfl
  · exact hexDigit_lower _
  · exact hexDigit_lower _

theorem length_hexText (bytes : List (Fin 256)) : (hexText bytes).length = 2 * bytes.length := by
  rw [hexText,List.length_flatMap]
  simp [Nat.mul_comm]

theorem length_hashed (md5 : Text → Fin 16 → Fin 256) (kind : String) (identifier : Text) :
    (hashed md5 kind identifier).length = kind.toList.length + 33 := by
  rw [hashed,List.length_append,List.length_cons,length_hexText,List.length_ofFn]

variable {kind : String}

theorem hashed_lower (md5 : Text → Fin 16 → Fin 256)
    (hkind : isLowerAlphanumeric kind.toList = true) (identifier : Text) :
    isLowerAlphanumeric (hashed md5 kind identifier) = true := by
  rw [isLowerAlphanumeric,hashed,List.all_append,List.all_cons,Bool.and_eq_true,Bool.and_eq_true]
  refine ⟨hkind,by decide,?_⟩
  rw [List.all_eq_true]
  intro c hc
  rcases mem_hexText hc with h | h <;> simp [h]

theorem isAlphanumeric_of_lower (h : isLowerAlphanumeric text = true) : isAlphanumeric text = true := by
  rw [isAlphanumeric,List.all_eq_true]
  rw [isLowerAlphanumeric,List.all_eq_true] at h
  intro c hc
  have hlower := h c hc
  simp only [isWordChar,Char.isAlphanum,Char.isAlpha,Bool.or_eq_true] at hlower ⊢
  tauto

theorem isAlphanumeric_take (h : isAlphanumeric text = true) (n : ℕ) :
    isAlphanumeric (text.take n) = true := by
  rw [isAlphanumeric,List.all_eq_true] at h ⊢
  exact fun c hc => h c (List.mem_of_mem_take hc)

structure Fits (letters : Letters) (maxLength : ℕ) (text : Text) : Prop where
  chars : ∀ c ∈ text, supported letters c = true
  nonempty : text ≠ []
  length : text.length ≤ maxLength

theorem Fits.of_alphanumeric (h : isAlphanumeric text = true) (hne : text ≠ [])
    (hlength : text.length ≤ maxLength) :
    Fits letters maxLength text :=
  ⟨fun c hc => supported_of_isWordChar (List.all_eq_true.mp h c hc),hne,hlength⟩

theorem hashed_fits (md5 : Text → Fin 16 → Fin 256)
    (hkind : isLowerAlphanumeric kind.toList = true) (identifier : Text)
    (hlength : kind.toList.length + 33 ≤ maxLength) : Fits letters maxLength (hashed md5 kind identifier) := by
  have hhashed := length_hashed md5 kind identifier
  exact .of_alphanumeric (isAlphanumeric_of_lower (hashed_lower md5 hkind identifier))
    (List.ne_nil_of_length_pos (by omega)) (by omega)

structure Cleaned (letters : Letters) (name : Text × Bool) : Prop where
  fits : ∃ n, Fits letters n name.1
  alphanumeric : name.2 = true → isAlphanumeric name.1 = true

theorem cleaned_spec (hkind : isLowerAlphanumeric kind.toList = true) {identifier : Text}
    (hne : identifier ≠ []) :
    Cleaned letters (cleaned letters md5 kind identifier (isAlphanumeric identifier)) := by
  simp only [cleaned]
  split_ifs with halnum hresult
  · exact ⟨⟨_,.of_alphanumeric halnum hne le_rfl⟩,fun _ => halnum⟩
  · exact ⟨⟨_,hashed_fits md5 hkind identifier le_rfl⟩,
      fun _ => isAlphanumeric_of_lower (hashed_lower md5 hkind identifier)⟩
  · refine ⟨⟨_,?_,fun h => hresult (.inl h),le_rfl⟩,fun h => absurd h Bool.false_ne_true⟩
    intro c hc
    rcases mem_replaceRuns hc with h | h
    · simpa using h
    · exact supported_of_isWordChar (h ▸ by decide)

theorem Fits.take {n : ℕ} (h : Fits letters n text) (hmax : 0 < maxLength) :
    Fits letters maxLength (text.take maxLength) := by
  refine ⟨fun c hc => h.chars c (List.mem_of_mem_take hc),?_,List.length_take_le _ _⟩
  have hpos := List.length_pos_iff.mpr h.nonempty
  exact List.ne_nil_of_length_pos (by rw [List.length_take]; omega)

theorem shortened_fst (hasFunc : Bool) (name : Text × Bool) :
    (shortened maxLength hasFunc name).1 = name.1.take maxLength := by
  rw [shortened]
  split <;> rfl

theorem shortened_fits {hasFunc : Bool} {name : Text × Bool} (h : Cleaned letters name)
    (hmax : 0 < maxLength) :
    Fits letters maxLength (shortened maxLength hasFunc name).1 := by
  obtain ⟨n,hfits⟩ := h.fits
  rw [shortened_fst]
  exact hfits.take hmax

theorem shortened_alphanumeric {name : Text × Bool} (h : Cleaned letters name) :
    (shortened maxLength true name).2 = isAlphanumeric (shortened maxLength true name).1 := by
  rw [shortened]
  split
  · next halnum => exact (isAlphanumeric_take (h.alphanumeric halnum) _).symm
  · rfl

theorem unnamed_fits (hmax : 8 ≤ maxLength) : Fits letters maxLength "_unnamed".toList :=
  .of_alphanumeric (by decide) (by decide) hmax

theorem baseIdentifier_fits {hasFunc : Bool} (hkind : isLowerAlphanumeric kind.toList = true)
    (hmax : 8 ≤ maxLength) (identifier : Text) :
    Fits letters maxLength
      (baseIdentifier letters md5 maxLength hasFunc kind identifier (isAlphanumeric identifier)).1 := by
  unfold baseIdentifier
  split_ifs with hempty
  · exact unnamed_fits hmax
  · exact shortened_fits (cleaned_spec hkind hempty) (by omega)

theorem baseIdentifier_alphanumeric (hkind : isLowerAlphanumeric kind.toList = true)
    (identifier : Text) :
    let base := baseIdentifier letters md5 maxLength true kind identifier (isAlphanumeric identifier)
    base.2 = isAlphanumeric base.1 := by
  unfold baseIdentifier
  split_ifs with hempty
  · rw [hempty]
    decide
  · exact shortened_alphanumeric (cleaned_spec hkind hempty)

theorem cleaned_of_fits (h : Fits letters maxLength text) (kind : String) :
    (cleaned letters md5 kind text (isAlphanumeric text)).1 = text := by
  have hsame : replaceUnsupported letters text = text :=
    replaceRuns_of_good (fun c hc => by rw [h.chars c hc]; rfl)
  simp only [cleaned,hsame]
  split_ifs with halnum hresult
  · rfl
  · rcases hresult with hnil | hunder
    · exact absurd hnil h.nonempty
    · exact absurd (hunder ▸ by decide) halnum
  · rfl

theorem baseIdentifier_of_fits (h : Fits letters maxLength text) (hasFunc : Bool) (kind : String) :
    (baseIdentifier letters md5 maxLength hasFunc kind text (isAlphanumeric text)).1 = text := by
  rw [baseIdentifier,if_neg h.nonempty,shortened_fst,cleaned_of_fits h,List.take_of_length_le h.length]

structure Bare (text : Text) : Prop where
  first : startsWith isLetterOrUnderscore text = true
  alphanumeric : isAlphanumeric text = true

structure Stable (letters : Letters) (maxLength : ℕ) (f : IdentifierFunction) : Prop where
  fits : ∀ {text}, Fits letters maxLength text → Fits letters maxLength (f text (isAlphanumeric text)).1
  again : ∀ {text}, Fits letters maxLength text →
    f (f text (isAlphanumeric text)).1 (isAlphanumeric (f text (isAlphanumeric text)).1) =
      f text (isAlphanumeric text)
  bare : ∀ {text}, Fits letters maxLength text → (f text (isAlphanumeric text)).2 = false →
    Bare (f text (isAlphanumeric text)).1

section Adaptation

variable {th : TableHelper} {kind : String} {f : IdentifierFunction} {idFunc : Option IdentifierFunction}

theorem adapt_some (md5 : Text → Fin 16 → Fin 256) (hkind : isLowerAlphanumeric kind.toList = true)
    (hmax : 8 ≤ th.maxIdentifierLength) (f : IdentifierFunction) (name : Text) :
    ∃ base, Fits letters th.maxIdentifierLength base ∧
      adaptSqlIdentifier letters md5 th name kind (some f) (isAlphanumeric name) = f base
        (isAlphanumeric base) := by
  refine ⟨(baseIdentifier letters md5 th.maxIdentifierLength true kind name (isAlphanumeric name)).1,
    baseIdentifier_fits hkind hmax name,?_⟩
  rw [← baseIdentifier_alphanumeric hkind name]
  rfl

theorem adapt_some_of_fits (h : Fits letters th.maxIdentifierLength text)
    (hkind : isLowerAlphanumeric kind.toList = true) (f : IdentifierFunction) :
    adaptSqlIdentifier letters md5 th text kind (some f) (isAlphanumeric text) = f text
    (isAlphanumeric text) := by
  rw [adaptSqlIdentifier]
  simp only [Option.isSome_some,baseIdentifier_alphanumeric hkind text,baseIdentifier_of_fits h]

section

variable (md5 : Text → Fin 16 → Fin 256) (hkind : isLowerAlphanumeric kind.toList = true)
  (hmax : 8 ≤ th.maxIdentifierLength)

include hkind hmax

theorem adapt_fits (hfunc : ∀ f ∈ idFunc, Stable letters th.maxIdentifierLength f)
    (name : Text) :
    Fits letters th.maxIdentifierLength
      (adaptSqlIdentifier letters md5 th name kind idFunc (isAlphanumeric name)).1 := by
  cases idFunc with
  | none => exact baseIdentifier_fits hkind hmax name
  | some f =>
    obtain ⟨base,hbase,heq⟩ := adapt_some md5 hkind hmax f name
    rw [heq]
    exact (hfunc f rfl).fits hbase

theorem adapt_again (hfunc : ∀ f ∈ idFunc, Stable letters th.maxIdentifierLength f)
    (name : Text) :
    let adapted := adaptSqlIdentifier letters md5 th name kind idFunc (isAlphanumeric name)
    adaptSqlIdentifier letters md5 th adapted.1 kind idFunc (isAlphanumeric adapted.1) = adapted := by
  intro adapted
  have hfits : Fits letters th.maxIdentifierLength adapted.1 := adapt_fits md5 hkind hmax hfunc name
  cases idFunc with
  | none => exact Prod.ext (baseIdentifier_of_fits hfits _ _) rfl
  | some f =>
    rw [adapt_some_of_fits hfits hkind]
    obtain ⟨base,hbase,heq⟩ := adapt_some md5 hkind hmax f name
    have hadapted : adapted = f base (isAlphanumeric base) := heq
    rw [hadapted]
    exact (hfunc f rfl).again hbase

theorem adapt_bare (hf : Stable letters th.maxIdentifierLength f) (name : Text) :
    let adapted := adaptSqlIdentifier letters md5 th name kind (some f) (isAlphanumeric name)
    adapted.2 = false → Bare adapted.1 := by
  intro adapted
  obtain ⟨base,hbase,heq⟩ := adapt_some md5 hkind hmax f name
  have hadapted : adapted = f base (isAlphanumeric base) := heq
  rw [hadapted]
  exact hf.bare hbase

end

end Adaptation

theorem tableNameFunc_stable : Stable letters maxLength tableNameFunc where
  fits h := h
  again _ := rfl
  bare := by
    intro text _ hquote
    simp only [tableNameFunc,Bool.or_eq_false_iff,Bool.not_eq_false'] at hquote
    obtain ⟨⟨halnum,_⟩,hfirst⟩ := hquote
    refine ⟨?_,halnum⟩
    rw [startsWith,Option.any_eq_true] at hfirst ⊢
    obtain ⟨c,hc,hlower⟩ := hfirst
    refine ⟨c,hc,?_⟩
    simp only [isLowerLetterOrUnderscore,isLetterOrUnderscore,Char.isAlpha,Bool.or_eq_true] at hlower ⊢
    tauto

theorem toNat_lt_of_isWordChar (h : isWordChar c = true) : c.toNat < 128 := by
  rw [isWordChar,Char.isAlphanum,Bool.or_eq_true,Bool.or_eq_true] at h
  rcases h with (halpha | hdigit) | hunder
  · exact toNat_lt_of_isAlpha halpha
  · rw [Char.isDigit,Bool.and_eq_true,decide_eq_true_eq,decide_eq_true_eq] at hdigit
    exact lt_of_le_of_lt hdigit.2 (by decide)
  · rw [beq_iff_eq.mp hunder]
    decide

theorem isWordChar_cases (h : isWordChar c = true) :
    isWordChar c.toUpper = true ∧ isWordChar c.toLower = true ∧ c.toUpper.isLower = false ∧
      (c.isUpper = false → c.toUpper.toLower = c) ∧ (c.isLower = false → c.toUpper = c) := by
  have hlt := toNat_lt_of_isWordChar h
  revert h
  apply forall_ascii ?_ hlt
  decide

section Snowflake

theorem isAlphanumeric_toUpper (h : isAlphanumeric text = true) : isAlphanumeric (toUpper text) = true := by
  rw [isAlphanumeric,List.all_eq_true] at h ⊢
  intro c hc
  obtain ⟨d,hd,rfl⟩ := List.mem_map.mp hc
  exact (isWordChar_cases (h d hd)).1

theorem toUpper_of_isUpper (halnum : isAlphanumeric text = true) (h : ∀ c ∈ text, c.isLower = false) :
    toUpper text = text := by
  refine (List.map_congr_left ?_).trans (List.map_id text)
  intro c hc
  exact (isWordChar_cases (List.all_eq_true.mp halnum c hc)).2.2.2.2 (h c hc)

theorem toLower_toUpper (halnum : isAlphanumeric text = true) (h : ∀ c ∈ text, c.isUpper = false) :
    toLower (toUpper text) = text := by
  rw [toLower,toUpper,List.map_map]
  refine (List.map_congr_left ?_).trans (List.map_id text)
  intro c hc
  exact (isWordChar_cases (List.all_eq_true.mp halnum c hc)).2.2.2.1 (h c hc)

structure LowerWords (words : List String) : Prop where
  plain : ∀ word ∈ words, isLowerAlphanumeric word.toList = true
  lettered : ∀ word ∈ words, word.toList.any Char.isLower = true

theorem sfReservedWords_lower : LowerWords sfReservedWords := ⟨by decide,by decide⟩

theorem sfReservedColumnNames_lower : LowerWords sfReservedColumnNames := ⟨by decide,by decide⟩

theorem isUpper_of_isLowerAlphanumeric (h : isLowerAlphanumeric text = true) :
    ∀ c ∈ text, c.isUpper = false := by
  intro c hc
  have hword := List.all_eq_true.mp (isAlphanumeric_of_lower h) c hc
  have hlower := List.all_eq_true.mp h c hc
  exact forall_ascii (P := fun c => (c.isLower || c.isDigit || c == '_') = true → c.isUpper = false)
    (by decide)
    (toNat_lt_of_isWordChar hword) hlower

theorem LowerWords.toUpper_not_mem {words : List String} (hwords : LowerWords words)
    (hlower : isLowerAlphanumeric text = true) (h : text ∉ bothCases words) :
    toUpper text ∉ bothCases words := by
  have halnum := isAlphanumeric_of_lower hlower
  intro hmem
  rcases List.mem_append.mp hmem with hmem | hmem
  · obtain ⟨word,hword,heq⟩ := List.mem_map.mp hmem
    obtain ⟨c,hc,hletter⟩ := List.any_eq_true.mp (hwords.lettered word hword)
    rw [heq] at hc
    obtain ⟨d,hd,rfl⟩ := List.mem_map.mp hc
    rw [(isWordChar_cases (List.all_eq_true.mp halnum d hd)).2.2.1] at hletter
    exact absurd hletter Bool.false_ne_true
  · obtain ⟨word,hword,heq⟩ := List.mem_map.mp hmem
    have hplain := hwords.plain word hword
    have hsame : word.toList = text := by
      rw [← toLower_toUpper halnum (isUpper_of_isLowerAlphanumeric hlower),← heq,
        toLower_toUpper (isAlphanumeric_of_lower hplain) (isUpper_of_isLowerAlphanumeric hplain)]
    exact h (hsame ▸ List.mem_append_left _ (List.mem_map_of_mem hword))

theorem ofCase_all {letter : Char → Bool} (h : ofCase letter text = true) :
    ∀ c ∈ text, (c.isDigit || letter c || c == '_') = true := by
  rw [ofCase,Bool.and_eq_true] at h
  exact List.all_eq_true.mp h.2

theorem isLowerAlphanumeric_of_ofCase (h : ofCase Char.isLower text = true) :
    isLowerAlphanumeric text = true := by
  refine List.all_eq_true.mpr (fun c hc => ?_)
  have hc := ofCase_all h c hc
  simp only [Bool.or_eq_true] at hc ⊢
  tauto

theorem ofCase_toUpper (h : ofCase Char.isLower text = true) : ofCase Char.isUpper (toUpper text) = true := by
  have hchar : ∀ c : Char, c.toNat < 128 →
      ((c.isLower || c == '_') = true → (c.toUpper.isUpper || c.toUpper == '_') = true) ∧
        ((c.isDigit || c.isLower || c == '_') = true →
          (c.toUpper.isDigit || c.toUpper.isUpper || c.toUpper == '_') = true) := by
    intro c hc
    apply forall_ascii ?_ hc
    decide
  have halnum := List.all_eq_true.mp (isAlphanumeric_of_lower (isLowerAlphanumeric_of_ofCase h))
  have hall := ofCase_all h
  rw [ofCase,Bool.and_eq_true] at h ⊢
  obtain ⟨hfirst,_⟩ := h
  rw [startsWith,Option.any_eq_true] at hfirst ⊢
  obtain ⟨c,hc,hfirst⟩ := hfirst
  have hmem := List.mem_of_mem_head? hc
  refine ⟨⟨c.toUpper,?_,(hchar c (toNat_lt_of_isWordChar (halnum c hmem))).1 hfirst⟩,?_⟩
  · rw [toUpper,List.head?_map,hc]
    rfl
  · refine List.all_eq_true.mpr (fun d hd => ?_)
    obtain ⟨c,hc,rfl⟩ := List.mem_map.mp hd
    exact (hchar c (toNat_lt_of_isWordChar (halnum c hc))).2 (hall c hc)

theorem toUpper_of_ofCase (halnum : isAlphanumeric text = true) (h : ofCase Char.isUpper text = true) :
    toUpper text = text := by
  refine toUpper_of_isUpper halnum (fun c hc => ?_)
  exact forall_ascii (P := fun c => (c.isDigit || c.isUpper || c == '_') = true → c.isLower = false)
    (by decide)
    (toNat_lt_of_isWordChar (List.all_eq_true.mp halnum c hc)) (ofCase_all h c hc)

theorem startsWith_of_ofCase {letter : Char → Bool} (hletter : ∀ c, letter c = true → c.isAlpha = true)
    (h : ofCase letter text = true) : startsWith isLetterOrUnderscore text = true := by
  rw [ofCase,Bool.and_eq_true] at h
  obtain ⟨hfirst,_⟩ := h
  rw [startsWith,Option.any_eq_true] at hfirst ⊢
  obtain ⟨c,hc,hfirst⟩ := hfirst
  refine ⟨c,hc,?_⟩
  rw [Bool.or_eq_true] at hfirst
  rcases hfirst with hfirst | hfirst
  · rw [isLetterOrUnderscore,hletter c hfirst,Bool.true_or]
  · rw [isLetterOrUnderscore,hfirst,Bool.or_true]

theorem sf_reserved_column : ∀ word ∈ sfReservedColumnNamesSet,
    sfIdentifierFunction ('_' :: toUpper word) (isAlphanumeric ('_' :: toUpper word)) =
    ('_' :: toUpper word,false) ∧
      isAlphanumeric ('_' :: toUpper word) = true ∧ ('_' :: toUpper word).length ≤ 255 := by
  decide +kernel

theorem toUpper_toUpper (halnum : isAlphanumeric text = true) : toUpper (toUpper text) = toUpper text := by
  refine toUpper_of_isUpper (isAlphanumeric_toUpper halnum) (fun c hc => ?_)
  obtain ⟨d,hd,rfl⟩ := List.mem_map.mp hc
  exact (isWordChar_cases (List.all_eq_true.mp halnum d hd)).2.2.1

theorem LowerWords.mem_cases {words : List String} (hwords : LowerWords words) (h : text ∈ bothCases words) :
    ∃ word ∈ words, isLowerAlphanumeric word.toList = true ∧
    (text = word.toList ∨ text = toUpper word.toList) := by
  rcases List.mem_append.mp h with h | h
  · obtain ⟨word,hword,rfl⟩ := List.mem_map.mp h
    exact ⟨word,hword,hwords.plain word hword,.inl rfl⟩
  · obtain ⟨word,hword,rfl⟩ := List.mem_map.mp h
    exact ⟨word,hword,hwords.plain word hword,.inr rfl⟩

theorem sfReservedWords_length :
    ∀ word ∈ sfReservedWords, 0 < word.toList.length ∧ word.toList.length ≤ 255 := by
  decide

theorem sf_reserved_word (hmem : text ∈ sfReservedWordsSet) (hcolumn : text ∉ sfReservedColumnNamesSet) :
    sfIdentifierFunction (toUpper text) (isAlphanumeric (toUpper text)) = (toUpper text,true) ∧
      isAlphanumeric (toUpper text) = true ∧ toUpper text ≠ [] ∧ (toUpper text).length ≤ 255 := by
  obtain ⟨word,hword,hlower,htext⟩ := sfReservedWords_lower.mem_cases hmem
  have halnum := isAlphanumeric_of_lower hlower
  obtain ⟨hpos,hlength⟩ := sfReservedWords_length word hword
  have hupper : toUpper text = toUpper word.toList := by
    rcases htext with rfl | rfl
    · rfl
    · exact toUpper_toUpper halnum
  have hcolumn : toUpper word.toList ∉ sfReservedColumnNamesSet := by
    rcases htext with rfl | rfl
    · exact sfReservedColumnNames_lower.toUpper_not_mem hlower hcolumn
    · exact hcolumn
  have hmem : toUpper word.toList ∈ sfReservedWordsSet :=
    List.mem_append_right _ (List.mem_map.mpr ⟨word,hword,rfl⟩)
  rw [hupper,sfIdentifierFunction,if_neg hcolumn,if_pos hmem,toUpper_toUpper halnum]
  refine ⟨rfl,isAlphanumeric_toUpper halnum,?_,?_⟩
  · exact List.ne_nil_of_length_pos (by rwa [toUpper,List.length_map])
  · rwa [toUpper,List.length_map]

theorem sf_plain (hcolumn : text ∉ sfReservedColumnNamesSet) (hword : text ∉ sfReservedWordsSet)
    (halnum : isAlphanumeric text = true) (hfirst : startsWith isLetterOrUnderscore text = true)
    (hpattern : sfUnquotedIdentifierPattern text = true) :
    sfIdentifierFunction text (isAlphanumeric text) = (toUpper text,false) := by
  rw [sfIdentifierFunction,if_neg hcolumn,if_neg hword,if_neg]
  simp [halnum,hfirst,hpattern]

theorem sf_upper (hcolumn : text ∉ sfReservedColumnNamesSet) (hword : text ∉ sfReservedWordsSet)
    (halnum : isAlphanumeric text = true) (hpattern : sfUnquotedIdentifierPattern text = true) :
    sfIdentifierFunction (toUpper text) (isAlphanumeric (toUpper text)) = (toUpper text,false) ∧
      startsWith isLetterOrUnderscore (toUpper text) = true := by
  have hupper : ∀ name, isAlphanumeric name = true → ofCase Char.isUpper name = true →
      name ∉ sfReservedColumnNamesSet → name ∉ sfReservedWordsSet →
      sfIdentifierFunction name (isAlphanumeric name) = (name,false) ∧
        startsWith isLetterOrUnderscore name = true := by
    intro name hname hcase hcolumn hword
    have hfirst := startsWith_of_ofCase (fun c hc => by rw [Char.isAlpha,hc,Bool.true_or]) hcase
    refine ⟨?_,hfirst⟩
    rw [sf_plain hcolumn hword hname hfirst (by rw [sfUnquotedIdentifierPattern,hcase,Bool.or_true]),
      toUpper_of_ofCase hname hcase]
  rw [sfUnquotedIdentifierPattern,Bool.or_eq_true] at hpattern
  rcases hpattern with hlower | hcase
  · have hlow := isLowerAlphanumeric_of_ofCase hlower
    exact hupper _ (isAlphanumeric_toUpper halnum) (ofCase_toUpper hlower)
      (sfReservedColumnNames_lower.toUpper_not_mem hlow hcolumn)
        (sfReservedWords_lower.toUpper_not_mem hlow hword)
  · rw [toUpper_of_ofCase halnum hcase]
    exact hupper _ halnum hcase hcolumn hword

theorem sfIdentifierFunction_cases (text : Text) :
    let adapted := sfIdentifierFunction text (isAlphanumeric text)
    (text ∈ sfReservedColumnNamesSet ∧ adapted = ('_' :: toUpper text,false)) ∨
      (text ∈ sfReservedWordsSet ∧ text ∉ sfReservedColumnNamesSet ∧ adapted = (toUpper text,true)) ∨
      adapted = (text,true) ∨
      (text ∉ sfReservedColumnNamesSet ∧ text ∉ sfReservedWordsSet ∧ isAlphanumeric text = true ∧
        sfUnquotedIdentifierPattern text = true ∧ adapted = (toUpper text,false)) := by
  intro adapted
  by_cases hcolumn : text ∈ sfReservedColumnNamesSet
  · exact .inl ⟨hcolumn,if_pos hcolumn⟩
  · by_cases hword : text ∈ sfReservedWordsSet
    · exact .inr (.inl ⟨hword,hcolumn,(if_neg hcolumn).trans (if_pos hword)⟩)
    · by_cases hplain : isAlphanumeric text = false ∨ startsWith isLetterOrUnderscore text = false ∨
        sfUnquotedIdentifierPattern text = false
      · exact .inr (.inr (.inl ((if_neg hcolumn).trans ((if_neg hword).trans (if_pos hplain)))))
      · have hadapted : adapted = (toUpper text,false) :=
          (if_neg hcolumn).trans ((if_neg hword).trans (if_neg hplain))
        simp only [not_or,Bool.not_eq_false] at hplain
        exact .inr (.inr (.inr ⟨hcolumn,hword,hplain.1,hplain.2.2,hadapted⟩))

theorem sfIdentifierFunction_stable : Stable letters 255 sfIdentifierFunction where
  fits := by
    intro text hfits
    rcases sfIdentifierFunction_cases text with ⟨hmem,heq⟩ | ⟨hmem,hcolumn,heq⟩ | heq | ⟨_,_,halnum,_,heq⟩
    · obtain ⟨_,halnum,hlength⟩ := sf_reserved_column text hmem
      rw [heq]
      exact .of_alphanumeric halnum (List.cons_ne_nil _ _) hlength
    · obtain ⟨_,halnum,hne,hlength⟩ := sf_reserved_word hmem hcolumn
      rw [heq]
      exact .of_alphanumeric halnum hne hlength
    · rw [heq]
      exact hfits
    · rw [heq]
      exact .of_alphanumeric (isAlphanumeric_toUpper halnum) (by simpa [toUpper] using hfits.nonempty)
        (by simpa [toUpper] using hfits.length)
  again := by
    intro text hfits
    rcases sfIdentifierFunction_cases text with
      ⟨hmem,heq⟩ | ⟨hmem,hcolumn,heq⟩ | heq | ⟨hcolumn,hword,halnum,hpattern,heq⟩
    · rw [heq]
      exact (sf_reserved_column text hmem).1
    · rw [heq]
      exact (sf_reserved_word hmem hcolumn).1
    · rw [heq]
      exact heq
    · rw [heq]
      exact (sf_upper hcolumn hword halnum hpattern).1
  bare := by
    intro text hfits hquote
    rcases sfIdentifierFunction_cases text with
      ⟨hmem,heq⟩ | ⟨_,_,heq⟩ | heq | ⟨hcolumn,hword,halnum,hpattern,heq⟩
    · rw [heq]
      exact ⟨rfl,(sf_reserved_column text hmem).2.1⟩
    · rw [heq] at hquote
      exact Bool.noConfusion hquote
    · rw [heq] at hquote
      exact Bool.noConfusion hquote
    · rw [heq]
      exact ⟨(sf_upper hcolumn hword halnum hpattern).2,isAlphanumeric_toUpper halnum⟩

end Snowflake

section BigQuery

theorem startsWith_take (test : Char → Bool) (n : ℕ) :
    startsWith test (text.take (n + 1)) = startsWith test text := by
  cases text <;> rfl

theorem reserved_words_short :
    ∀ word ∈ bigqueryReservedWordsSet, word.length ≤ 20 ∧ startsWith (· == '_') word = false := by
  decide

theorem reserved_prefixes_apart :
    ∀ reserved ∈ bigqueryReservedPrefixes, ∀ other ∈ bigqueryReservedPrefixes,
      ¬other.toList <+: '_' :: reserved.toList ∧ ¬('_' :: reserved.toList) <+: other.toList := by
  decide

structure Named (text : Text) : Prop where
  bare : Bare text
  digit : startsWith Char.isDigit text = false

theorem named_of_not_digit (halnum : isAlphanumeric text = true) (hne : text ≠ [])
    (hdigit : startsWith Char.isDigit text = false) : Named text := by
  refine ⟨⟨?_,halnum⟩,hdigit⟩
  cases text with
  | nil => exact absurd rfl hne
  | cons c rest =>
    have hword := List.all_eq_true.mp halnum c List.mem_cons_self
    have hc : c.isDigit = false := hdigit
    simpa [startsWith,isLetterOrUnderscore,isWordChar,Char.isAlphanum,hc] using hword

theorem named_cons (halnum : isAlphanumeric text = true) : Named ('_' :: text) :=
  ⟨⟨rfl,by rw [isAlphanumeric,List.all_cons]; exact halnum⟩,rfl⟩

theorem Named.nonempty (h : Named text) : text ≠ [] := by
  rintro rfl
  exact Bool.false_ne_true h.bare.first

theorem Named.take (h : Named text) (n : ℕ) : Named (text.take (n + 1)) :=
  ⟨⟨(startsWith_take _ n).trans h.bare.first,isAlphanumeric_take h.bare.alphanumeric _⟩,
    (startsWith_take _ n).trans h.digit⟩

theorem bigqueryChecked_named (halnum : isAlphanumeric text = true) (hne : text ≠ []) :
    ∃ name, Named name ∧ bigqueryChecked text = bigqueryChecked name := by
  by_cases hdigit : startsWith Char.isDigit text = true
  · refine ⟨'_' :: text,named_cons halnum,?_⟩
    have hname : startsWith Char.isDigit ('_' :: text) = false := rfl
    simp only [bigqueryChecked,hdigit,hname,if_true,Bool.false_eq_true,if_false]
  · exact ⟨text,named_of_not_digit halnum hne (Bool.not_eq_true _ ▸ hdigit),rfl⟩

theorem bigqueryChecked_cases (h : Named text) :
    (toLower text ∈ bigqueryReservedWordsSet ∧ bigqueryChecked text = (text,true)) ∨
      (∃ reserved ∈ bigqueryReservedPrefixes, reserved.toList <+: toLower text ∧
        bigqueryChecked text = (('_' :: text).take 300,false)) ∨
      (toLower text ∉ bigqueryReservedWordsSet ∧
        (¬∃ reserved ∈ bigqueryReservedPrefixes, reserved.toList <+: toLower text) ∧
        bigqueryChecked text = (text.take 300,false)) := by
  simp only [bigqueryChecked,h.digit,Bool.false_eq_true,if_false,shortenString]
  by_cases hword : toLower text ∈ bigqueryReservedWordsSet
  · exact .inl ⟨hword,if_pos hword⟩
  · by_cases hreserved : ∃ reserved ∈ bigqueryReservedPrefixes, reserved.toList <+: toLower text
    · obtain ⟨reserved,hmem,hpre⟩ := hreserved
      exact .inr (.inl ⟨reserved,hmem,hpre,(if_neg hword).trans (if_pos ⟨reserved,hmem,hpre⟩)⟩)
    · exact .inr (.inr ⟨hword,hreserved,(if_neg hword).trans (if_neg hreserved)⟩)

theorem bigqueryChecked_free (h : Named text) (hlength : text.length ≤ 300)
    (hword : toLower text ∉ bigqueryReservedWordsSet)
    (hreserved : ¬∃ reserved ∈ bigqueryReservedPrefixes, reserved.toList <+: toLower text) :
    bigqueryChecked text = (text,false) := by
  rcases bigqueryChecked_cases h with ⟨hmem,_⟩ | ⟨reserved,hmem,hpre,_⟩ | ⟨_,_,heq⟩
  · exact absurd hmem hword
  · exact absurd ⟨reserved,hmem,hpre⟩ hreserved
  · rw [heq,List.take_of_length_le hlength]

theorem bigqueryChecked_underscored (h : Named text) {reserved : String}
    (hmem : reserved ∈ bigqueryReservedPrefixes)
    (hpre : reserved.toList <+: toLower text) :
    bigqueryChecked (('_' :: text).take 300) = (('_' :: text).take 300,false) := by
  have hlower : toLower (('_' :: text).take 300) = ('_' :: toLower text).take 300 := by
    rw [toLower,List.map_take]
    rfl
  refine bigqueryChecked_free ((named_cons h.bare.alphanumeric).take 299) (List.length_take_le _ _) ?_ ?_
  · intro hword
    rw [hlower] at hword
    exact absurd (reserved_words_short _ hword).2 (by simp [startsWith])
  · rintro ⟨other,hother,hstart⟩
    rw [hlower] at hstart
    have happart := reserved_prefixes_apart reserved hmem other hother
    have hfull : other.toList <+: '_' :: toLower text := hstart.trans ( List.take_prefix _ _)
    have hunder : '_' :: reserved.toList <+: '_' :: toLower text := List.cons_prefix_cons.mpr ⟨rfl,hpre⟩
    rcases List.prefix_or_prefix_of_prefix hfull hunder with hle | hle
    · exact happart.1 hle
    · exact happart.2 hle

theorem bigqueryChecked_shortened (h : Named text) (hword : toLower text ∉ bigqueryReservedWordsSet)
    (hreserved : ¬∃ reserved ∈ bigqueryReservedPrefixes, reserved.toList <+: toLower text) :
    bigqueryChecked (text.take 300) = (text.take 300,false) := by
  have hlower : toLower (text.take 300) = (toLower text).take 300 := by rw [toLower,List.map_take]; rfl
  refine bigqueryChecked_free (h.take 299) (List.length_take_le _ _) ?_ ?_
  · intro hmem
    rw [hlower] at hmem
    have hshort := (reserved_words_short _ hmem).1
    rw [List.length_take] at hshort
    rw [List.take_of_length_le (by omega)] at hmem
    exact hword hmem
  · rintro ⟨reserved,hmem,hpre⟩
    rw [hlower] at hpre
    exact hreserved ⟨reserved,hmem,hpre.trans ( List.take_prefix _ _)⟩

structure Checked (letters : Letters) (adapted : Text × Bool) : Prop where
  fits : Fits letters 300 adapted.1
  again : bigqueryChecked adapted.1 = adapted
  bare : Bare adapted.1

theorem Checked.of_named {adapted : Text × Bool} (h : Named adapted.1) (hlength : adapted.1.length ≤ 300)
    (hagain : bigqueryChecked adapted.1 = adapted) : Checked letters adapted :=
  ⟨.of_alphanumeric h.bare.alphanumeric h.nonempty hlength,hagain,h.bare⟩

theorem bigqueryChecked_spec (halnum : isAlphanumeric text = true) (hne : text ≠ []) :
    Checked letters (bigqueryChecked text) := by
  obtain ⟨name,hname,hsame⟩ := bigqueryChecked_named halnum hne
  rw [hsame]
  rcases bigqueryChecked_cases hname with ⟨hmem,heq⟩ | ⟨reserved,hmem,hpre,heq⟩ | ⟨hword,hreserved,heq⟩
  · have hshort := (reserved_words_short _ hmem).1
    rw [toLower,List.length_map] at hshort
    rw [heq]
    exact .of_named hname (by simp only; omega) heq
  · rw [heq]
    exact .of_named ((named_cons hname.bare.alphanumeric).take 299) (List.length_take_le _ _)
      (bigqueryChecked_underscored hname hmem hpre)
  · rw [heq]
    exact .of_named (hname.take 299) (List.length_take_le _ _)
      (bigqueryChecked_shortened hname hword hreserved)

theorem hashed_column_checked (md5 : Text → Fin 16 → Fin 256) (identifier : Text) :
    Checked letters (hashed md5 "column" identifier,false) := by
  have hlength : (hashed md5 "column" identifier).length = 39 := length_hashed md5 "column" identifier
  have hlower : isLowerAlphanumeric (hashed md5 "column" identifier) = true :=
    hashed_lower md5 (by decide) identifier
  have hnamed : Named (hashed md5 "column" identifier) :=
    named_of_not_digit (isAlphanumeric_of_lower hlower) (List.ne_nil_of_length_pos (by omega)) rfl
  have hagain : bigqueryChecked (hashed md5 "column" identifier) = (hashed md5 "column" identifier,false) := by
    refine bigqueryChecked_free hnamed (by omega) ?_ ?_
    · intro hmem
      have hshort := (reserved_words_short _ hmem).1
      rw [toLower,List.length_map] at hshort
      omega
    · rintro ⟨reserved,hmem,rest,hrest⟩
      have hunder : ∀ reserved ∈ bigqueryReservedPrefixes, reserved.toList.head? = some '_' := by decide
      have hhead : (toLower (hashed md5 "column" identifier)).head? = some 'c' := rfl
      rw [← hrest,List.head?_append,hunder reserved hmem,Option.some_or,Option.some.injEq] at hhead
      exact absurd hhead (by decide)
  exact .of_named hnamed (hlength.le.trans (by decide)) hagain

theorem columnNameFunc_alphanumeric (halnum : isAlphanumeric text = true) :
    columnNameFunc md5 text (isAlphanumeric text) = bigqueryChecked text := by
  rw [columnNameFunc,if_pos halnum]

theorem columnNameFunc_checked (md5 : Text → Fin 16 → Fin 256) (h : Fits letters maxLength text) :
    Checked letters (columnNameFunc md5 text (isAlphanumeric text)) := by
  by_cases halnum : isAlphanumeric text = true
  · rw [columnNameFunc_alphanumeric halnum]
    exact bigqueryChecked_spec halnum h.nonempty
  · simp only [columnNameFunc,halnum,Bool.false_eq_true,if_false]
    split
    · exact hashed_column_checked md5 text
    · next hclean =>
      have hwords : isAlphanumeric (bigqueryClean text) = true :=
        List.all_eq_true.mpr (fun c hc => (List.mem_filter.mp hc).2)
      exact bigqueryChecked_spec hwords (fun hnil => hclean (.inl hnil))

theorem columnNameFunc_stable (md5 : Text → Fin 16 → Fin 256) (hmax : 300 ≤ maxLength) :
    Stable letters maxLength (columnNameFunc md5) where
  fits h :=
    have hchecked := columnNameFunc_checked md5 h
    ⟨hchecked.fits.chars,hchecked.fits.nonempty,hchecked.fits.length.trans hmax⟩
  again h := by
    have hchecked := columnNameFunc_checked md5 h
    rw [columnNameFunc_alphanumeric hchecked.bare.alphanumeric]
    exact hchecked.again
  bare h _ := (columnNameFunc_checked md5 h).bare

end BigQuery

section Cache

variable (letters md5) (th : TableHelper)

def ColumnNameCache.after (names : List Text) : ColumnNameCache :=
  names.foldl (fun cache name => cache.set name (th.adaptColumn letters md5 name)) .new

variable {letters md5 th}

theorem after_snoc (names : List Text) (name : Text) :
    ColumnNameCache.after letters md5 th (names ++ [name]) =
      (ColumnNameCache.after letters md5 th names).set name (th.adaptColumn letters md5 name) := by
  rw [ColumnNameCache.after,List.foldl_append]
  rfl

theorem after_entries (names : List Text) {name : Text} {known : Text × Bool}
    (h : (ColumnNameCache.after letters md5 th names).entries name = some known) :
    known = th.adaptColumn letters md5 name := by
  induction names using List.reverseRecOn with
  | nil => cases h
  | append_singleton names last ih =>
    rw [after_snoc,ColumnNameCache.set] at h
    by_cases hlast : name = last
    · subst hlast
      simp only [Function.update_self,Option.some.injEq] at h
      exact h.symm
    · simp only [Function.update_of_ne hlast] at h
      split at h
      · cases h
      · exact ih h

theorem adaptColumnCached_fst (names : List Text) (name : Text) :
    (th.adaptColumnCached letters md5 (.after letters md5 th names) name).1 =
      th.adaptColumn letters md5 name := by
  simp only [TableHelper.adaptColumnCached]
  split
  · split
    · next known hknown => exact after_entries names hknown
    · rfl
  · rfl

theorem adaptColumnCached_snd (names : List Text) (name : Text) :
    ∃ more, (th.adaptColumnCached letters md5 (.after letters md5 th names) name).2 =
      .after letters md5 th (names ++ more) := by
  simp only [TableHelper.adaptColumnCached]
  split
  · split
    · exact ⟨[],by rw [List.append_nil]⟩
    · exact ⟨[name],(after_snoc names name).symm⟩
  · exact ⟨[],by rw [List.append_nil]⟩

end Cache

section Results

structure HelperSafe (letters : Letters) (th : TableHelper) : Prop where
  room : 8 ≤ th.maxIdentifierLength
  quote : supported letters th.identifierQuoteChar = false
  quoting : th.useQuoting = true
  table : ∀ f ∈ th.tableNameFunc, Stable letters th.maxIdentifierLength f
  column : ∀ f ∈ th.columnNameFunc, Stable letters th.maxIdentifierLength f

theorem tableHelper_room (md5 : Text → Fin 16 → Fin 256) (adapter : Adapter) :
    8 ≤ (adapter.tableHelper md5).maxIdentifierLength := by
  cases adapter <;> simp [Adapter.tableHelper]

theorem tableHelper_safe (letters : Letters) (md5 : Text → Fin 16 → Fin 256) (adapter : Adapter) :
    HelperSafe letters (adapter.tableHelper md5) := by
  have hroom := tableHelper_room md5 adapter
  have hnone : ∀ n, ∀ f ∈ (none : Option IdentifierFunction), Stable letters n f := fun _ _ h => nomatch h
  cases adapter with
  | bigquery =>
    refine ⟨hroom,supported_backquote,rfl,?_,?_⟩
    · rintro f ⟨⟩
      exact tableNameFunc_stable
    · rintro f ⟨⟩
      exact columnNameFunc_stable md5 (show 300 ≤ 1024 by decide)
  | snowflake =>
    refine ⟨hroom,supported_quote,rfl,?_,?_⟩
    · rintro f ⟨⟩
      exact sfIdentifierFunction_stable
    · rintro f ⟨⟩
      exact sfIdentifierFunction_stable
  | clickhouse => exact ⟨hroom,supported_backquote,rfl,hnone _,hnone _⟩
  | mysql => exact ⟨hroom,supported_backquote,rfl,hnone _,hnone _⟩
  | duckdb => exact ⟨hroom,supported_quote,rfl,hnone _,hnone _⟩
  | postgres => exact ⟨hroom,supported_quote,rfl,hnone _,hnone _⟩
  | redshift => exact ⟨hroom,supported_quote,rfl,hnone _,hnone _⟩

structure SafeIdentifier (letters : Letters) (th : TableHelper) (adapted : Text × Bool) : Prop where
  quote : th.identifierQuoteChar ∉ adapted.1
  chars : ∀ c ∈ adapted.1, supported letters c = true
  nonempty : adapted.1 ≠ []
  length : adapted.1.length ≤ th.maxIdentifierLength
  bare : adapted.2 = false → Bare adapted.1

theorem adapt_safe {th : TableHelper} {kind : String} {idFunc : Option IdentifierFunction}
    (h : HelperSafe letters th) (hkind : isLowerAlphanumeric kind.toList = true)
    (hfunc : ∀ f ∈ idFunc, Stable letters th.maxIdentifierLength f) (name : Text) :
    SafeIdentifier letters th (adaptSqlIdentifier letters md5 th name kind idFunc (isAlphanumeric name)) := by
  have hfits := adapt_fits md5 hkind h.room hfunc name
  refine ⟨?_,hfits.chars,hfits.nonempty,hfits.length,?_⟩
  · intro hquote
    exact Bool.false_ne_true (h.quote.symm.trans (hfits.chars _ hquote))
  · cases idFunc with
    | none => exact fun hbare => Bool.noConfusion (h.quoting.symm.trans hbare)
    | some f => exact adapt_bare md5 hkind h.room (hfunc f rfl) name

theorem identifiers_safe_and_stable (letters : Letters) (md5 : Text → Fin 16 → Fin 256) (adapter : Adapter)
    (names later : List Text) (name : Text) :
    let th := adapter.tableHelper md5
    let cache := ColumnNameCache.after letters md5 th names
    let laterCache := ColumnNameCache.after letters md5 th later
    SafeIdentifier letters th (th.adaptTable letters md5 name) ∧
      SafeIdentifier letters th (th.adaptColumnCached letters md5 cache name).1 ∧
      th.adaptTableName letters md5 (th.tableName letters md5 name) = th.adaptTableName letters md5 name ∧
      th.adaptColumnName letters md5 laterCache (th.columnName letters md5 cache name) =
        th.adaptColumnName letters md5 cache name ∧
      ∃ more, (th.adaptColumnCached letters md5 cache name).2 = .after letters md5 th (names ++ more) := by
  intro th cache laterCache
  have hsafe : HelperSafe letters th := tableHelper_safe letters md5 adapter
  have htable : isLowerAlphanumeric "table".toList = true := by decide
  have hcolumn : isLowerAlphanumeric "column".toList = true := by decide
  have htableAgain : th.adaptTable letters md5
    (th.tableName letters md5 name) = th.adaptTable letters md5 name :=
    adapt_again md5 htable hsafe.room hsafe.table name
  have hcolumnAgain : th.adaptColumn letters md5 (th.adaptColumn letters md5 name).1 =
      th.adaptColumn letters md5 name := adapt_again md5 hcolumn hsafe.room hsafe.column name
  refine ⟨adapt_safe hsafe htable hsafe.table name,?_,?_,?_,adaptColumnCached_snd names name⟩
  · rw [adaptColumnCached_fst]
    exact adapt_safe hsafe hcolumn hsafe.column name
  · rw [TableHelper.adaptTableName,htableAgain,TableHelper.tableName,htableAgain]
    rfl
  · simp only [TableHelper.adaptColumnName,TableHelper.columnName,cache,laterCache,adaptColumnCached_fst,
      hcolumnAgain]

end Results

end Jitsu.Warehouse.Identifiers
