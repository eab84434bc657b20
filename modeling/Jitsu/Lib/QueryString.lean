import Mathlib

namespace Jitsu.Lib.QueryString

def utf8 (text : List Char) : List UInt8 := text.flatMap String.utf8EncodeChar

def hexDigit (n : ℕ) : UInt8 := UInt8.ofNat (if n < 10 then 48 + n else 55 + n)

def unhex (b : UInt8) : Option ℕ :=
  if 48 ≤ b.toNat ∧ b.toNat ≤ 57 then some (b.toNat - 48)
  else if 97 ≤ b.toNat ∧ b.toNat ≤ 102 then some (b.toNat - 87)
  else if 65 ≤ b.toNat ∧ b.toNat ≤ 70 then some (b.toNat - 55)
  else none

def percentEncode (b : UInt8) : List UInt8 := [37,hexDigit (b.toNat / 16),hexDigit (b.toNat % 16)]

def queryPercentEncodeSet (c : Char) : Bool :=
  c.toNat ≤ 31 || 126 < c.toNat || c ∈ [' ','"','#','<','>','\'']

def encodeChar (c : Char) : List UInt8 :=
  if queryPercentEncodeSet c then (String.utf8EncodeChar c).flatMap percentEncode else String.utf8EncodeChar c

def encode (text : List Char) : List UInt8 := text.flatMap encodeChar

def trimmed (c : Char) : Bool := c.toNat ≤ 32

def tabOrNewline (c : Char) : Bool := c = '\t' || c = '\n' || c = '\r'

def search (url : List Char) : List UInt8 :=
  let input := ((url.dropWhile trimmed).rdropWhile trimmed).filter fun c => !tabOrNewline c
  encode (((input.takeWhile (· ≠ '#')).dropWhile (· ≠ '?')).drop 1)

def queryUnescape : List UInt8 → Option (List UInt8)
  | [] => some []
  | 37 :: high :: low :: rest =>
    match unhex high, unhex low with
    | some h, some l => (queryUnescape rest).map (UInt8.ofNat (16 * h + l) :: ·)
    | _, _ => none
  | b :: rest => if b = 37 then none else (queryUnescape rest).map ((if b = 43 then 32 else b) :: ·)

def parsePair (piece : List UInt8) : Option (List UInt8 × List UInt8) :=
  if 59 ∈ piece ∨ piece = [] then none
  else do
    let key ← queryUnescape (piece.takeWhile (· ≠ 61))
    let value ← queryUnescape ((piece.dropWhile (· ≠ 61)).drop 1)
    some (key,value)

def parseQuery (query : List UInt8) : List (List UInt8 × List UInt8) :=
  (query.splitOn 38).filterMap parsePair

def valuesGet (values : List (List UInt8 × List UInt8)) (key : List UInt8) : List UInt8 :=
  ((values.find? fun v => v.1 = key).map (·.2)).getD []

theorem utf8_injective {s t : List Char} (h : utf8 s = utf8 t) : s = t := by
  have hbytes : s.utf8Encode = t.utf8Encode := congrArg List.toByteArray h
  have hstring : String.ofList s = String.ofList t := String.toByteArray_inj.mp hbytes
  simpa using congrArg String.toList hstring

theorem utf8_append (s t : List Char) : utf8 (s ++ t) = utf8 s ++ utf8 t := List.flatMap_append

theorem utf8_length_pos {t : List Char} (h : t ≠ []) : 0 < (utf8 t).length := by
  cases t with
  | nil => exact absurd rfl h
  | cons c t =>
    have hc := List.length_pos_iff.mpr (String.utf8EncodeChar_ne_nil (c := c))
    simp only [utf8,List.flatMap_cons,List.length_append]
    omega

variable {c : Char}

theorem utf8EncodeChar_ascii (h : c.toNat ≤ 127) :
    String.utf8EncodeChar c = [UInt8.ofNat c.toNat] := by
  have hval : c.val.toNat ≤ 0x7f := h
  rw [String.utf8EncodeChar,if_pos hval]
  rfl

theorem unhex_hexDigit {n : ℕ} (h : n < 16) : unhex (hexDigit n) = some n := by
  have hall : ∀ i : Fin 16, unhex (hexDigit i) = some i.1 := by decide
  exact hall ⟨n,h⟩

theorem hexDigit_plain {n : ℕ} (h : n < 16) :
    hexDigit n ≠ 37 ∧ hexDigit n ≠ 38 ∧ hexDigit n ≠ 59 ∧ hexDigit n ≠ 61 := by
  have hall : ∀ i : Fin 16, hexDigit i ≠ 37 ∧ hexDigit i ≠ 38 ∧ hexDigit i ≠ 59 ∧ hexDigit i ≠ 61 := by decide
  exact hall ⟨n,h⟩

theorem unhex_ne {b : UInt8} {n : ℕ} (h : unhex b = some n) : b ≠ 37 := by
  rintro rfl
  cases h

theorem queryUnescape_percent (b : UInt8) (rest : List UInt8) :
    queryUnescape (percentEncode b ++ rest) = (queryUnescape rest).map (b :: ·) := by
  have hb := b.toNat_lt
  have hvalue : 16 * (b.toNat / 16) + b.toNat % 16 = b.toNat := by omega
  simp only [percentEncode,List.cons_append,List.nil_append,queryUnescape]
  rw [unhex_hexDigit (by omega),unhex_hexDigit (by omega)]
  simp [hvalue]

theorem queryUnescape_cons {b : UInt8} (h : b ≠ 37) (rest : List UInt8) :
    queryUnescape (b :: rest) = (queryUnescape rest).map ((if b = 43 then 32 else b) :: ·) := by
  rw [queryUnescape,if_neg h]
  rintro _ _ _ rfl
  exact absurd rfl h

theorem queryUnescape_percents (bs rest : List UInt8) :
    queryUnescape (bs.flatMap percentEncode ++ rest) = (queryUnescape rest).map (bs ++ ·) := by
  induction bs with
  | nil => simp
  | cons b bs ih =>
    rw [List.flatMap_cons,List.append_assoc,queryUnescape_percent,ih,Option.map_map]
    rfl

def plusToSpace (c : Char) : Char := if c = '+' then ' ' else c

theorem plain_bounds (h : queryPercentEncodeSet c = false) :
    31 < c.toNat ∧ c.toNat ≤ 126 ∧ encodeChar c = [UInt8.ofNat c.toNat] := by
  have hset := h
  simp only [queryPercentEncodeSet,Bool.or_eq_false_iff,decide_eq_false_iff_not] at hset
  obtain ⟨⟨hlow,hhigh⟩,-⟩ := hset
  refine ⟨by omega,by omega,?_⟩
  rw [encodeChar,h]
  exact utf8EncodeChar_ascii (by omega)

theorem ofNat_eq_iff {d : Char} (hc : c.toNat ≤ 127) (hd : d.toNat ≤ 127) :
    UInt8.ofNat c.toNat = UInt8.ofNat d.toNat ↔ c = d := by
  constructor
  · intro h
    have hnat := congrArg UInt8.toNat h
    simp only [UInt8.toNat_ofNat'] at hnat
    exact Char.toNat_inj.mp (by omega)
  · rintro rfl
    rfl

theorem queryUnescape_encodeChar (h : c ≠ '%') (rest : List UInt8) :
    queryUnescape (encodeChar c ++ rest) =
      (queryUnescape rest).map (String.utf8EncodeChar (plusToSpace c) ++ ·) := by
  cases hset : queryPercentEncodeSet c with
  | true =>
    have hplus : plusToSpace c = c := by
      rw [plusToSpace,if_neg]
      rintro rfl
      exact absurd hset (by decide)
    rw [encodeChar,hset,if_pos rfl,queryUnescape_percents,hplus]
  | false =>
    obtain ⟨hlow,hhigh,hbytes⟩ := plain_bounds hset
    have hne : UInt8.ofNat c.toNat ≠ 37 := fun heq => h
      ((ofNat_eq_iff (d := '%') (by omega) (by decide)).mp heq)
    rw [hbytes,List.singleton_append,queryUnescape_cons hne]
    by_cases hplus : c = '+'
    · subst hplus
      rfl
    · have hbyte : UInt8.ofNat c.toNat ≠ 43 :=
        fun heq => hplus ((ofNat_eq_iff (d := '+') (by omega) (by decide)).mp heq)
      rw [if_neg hbyte,plusToSpace,if_neg hplus,utf8EncodeChar_ascii (by omega)]
      rfl

variable {text : List Char}

theorem queryUnescape_encode (h : '%' ∉ text) :
    queryUnescape (encode text) = some (utf8 (text.map plusToSpace)) := by
  induction text with
  | nil => rfl
  | cons c text ih =>
    simp only [List.mem_cons,not_or] at h
    have hcons : encode (c :: text) = encodeChar c ++ encode text := List.flatMap_cons
    rw [hcons,queryUnescape_encodeChar (Ne.symm h.1),ih h.2]
    rfl

theorem queryUnescape_length {bs v : List UInt8} (h : queryUnescape bs = some v) :
    v.length + 2 * bs.count 37 = bs.length := by
  fun_induction queryUnescape bs generalizing v with
  | case1 =>
    cases h
    rfl
  | case2 high low rest x y hx hy ih =>
    obtain ⟨w,hw,rfl⟩ := Option.map_eq_some_iff.mp h
    have hlength := ih hw
    have hhigh := unhex_ne hx
    have hlow := unhex_ne hy
    simp [hhigh,hlow]
    omega
  | case3 => cases h
  | case4 => cases h
  | case5 b rest hrest hb ih =>
    obtain ⟨w,hw,rfl⟩ := Option.map_eq_some_iff.mp h
    have hlength := ih hw
    simp [hb]
    omega

theorem count_percentEncode (b : UInt8) : (percentEncode b).count 37 = 1 := by
  have hb := b.toNat_lt
  have hhigh := (hexDigit_plain (n := b.toNat / 16) (by omega)).1
  have hlow := (hexDigit_plain (n := b.toNat % 16) (by omega)).1
  simp [percentEncode,hhigh,hlow]

theorem percents_length (bs : List UInt8) :
    (bs.flatMap percentEncode).length = bs.length + 2 * (bs.flatMap percentEncode).count 37 := by
  induction bs with
  | nil => rfl
  | cons b bs ih =>
    have hone : (percentEncode b).length = 3 := rfl
    rw [List.flatMap_cons,List.length_append,List.count_append,count_percentEncode,ih,hone,List.length_cons]
    omega

theorem encodeChar_length (c : Char) : (encodeChar c).length + 2 * [c].count '%' =
    (String.utf8EncodeChar c).length + 2 * (encodeChar c).count 37 := by
  cases hset : queryPercentEncodeSet c with
  | true =>
    have hne : c ≠ '%' := by
      rintro rfl
      exact absurd hset (by decide)
    rw [encodeChar,hset,if_pos rfl,percents_length]
    simp [hne]
  | false =>
    obtain ⟨hlow,hhigh,hbytes⟩ := plain_bounds hset
    rw [hbytes,utf8EncodeChar_ascii (by omega)]
    by_cases hc : c = '%'
    · subst hc
      rfl
    · have hne : UInt8.ofNat c.toNat ≠ 37 :=
        fun heq => hc ((ofNat_eq_iff (d := '%') (by omega) (by decide)).mp heq)
      rw [List.count_singleton,List.count_singleton]
      simp [hc,hne]

theorem encode_length (text : List Char) : (encode text).length + 2 * text.count '%' =
    (utf8 text).length + 2 * (encode text).count 37 := by
  induction text with
  | nil => rfl
  | cons c text ih =>
    have hchar := encodeChar_length c
    have hcount : (c :: text).count '%' = [c].count '%' + text.count '%' := by
      rw [← List.count_append,List.singleton_append]
    simp only [encode,utf8,List.flatMap_cons,List.length_append,List.count_append] at ih hchar ⊢
    omega

theorem unescaped_length {v : List UInt8} (h : queryUnescape (encode text) = some v) :
    v.length + 2 * text.count '%' = (utf8 text).length := by
  have hbytes := queryUnescape_length h
  have hchars := encode_length text
  omega

theorem encodeChar_plain {d : Char} (hd : d.toNat ≤ 127)
    (hhex : ∀ n < 16, hexDigit n ≠ UInt8.ofNat d.toNat) (hpercent : d ≠ '%')
    (h : UInt8.ofNat d.toNat ∈ encodeChar c) :
    c = d := by
  cases hc : queryPercentEncodeSet c with
  | true =>
    rw [encodeChar,hc,if_pos rfl] at h
    obtain ⟨b,-,hb⟩ := List.mem_flatMap.mp h
    have hlt := b.toNat_lt
    simp only [percentEncode,List.mem_cons,List.not_mem_nil,or_false] at hb
    rcases hb with hb | hb | hb
    · exact absurd ((ofNat_eq_iff (d := '%') hd (by decide)).mp hb) hpercent
    · exact absurd hb.symm (hhex _ (by omega))
    · exact absurd hb.symm (hhex _ (by omega))
  | false =>
    obtain ⟨hlow,hhigh,hbytes⟩ := plain_bounds hc
    rw [hbytes,List.mem_singleton] at h
    exact ((ofNat_eq_iff hd (by omega)).mp h).symm

theorem encode_mem {d : Char} (hd : d.toNat ≤ 127)
    (hhex : ∀ n < 16, hexDigit n ≠ UInt8.ofNat d.toNat) (hpercent : d ≠ '%') (h : d ∉ text) :
    UInt8.ofNat d.toNat ∉ encode text := by
  intro hmem
  obtain ⟨c,hc,hb⟩ := List.mem_flatMap.mp hmem
  exact h (encodeChar_plain hd hhex hpercent hb ▸ hc)

theorem splitOn_append_left {α : Type} [DecidableEq α] {a : α} {p : List α} (h : a ∉ p) (xs : List α) :
    (p ++ xs).splitOn a = (xs.splitOn a).modifyHead (p ++ ·) := by
  induction p with
  | nil =>
    cases hs : xs.splitOn a with
    | nil => exact hs
    | cons y ys => exact hs
  | cons x p ih =>
    simp only [List.mem_cons,not_or] at h
    rw [List.cons_append,List.splitOn_cons_eq_if_modifyHead,ih h.2]
    cases hs : xs.splitOn a with
    | nil => simp [Ne.symm h.1]
    | cons y ys => simp [Ne.symm h.1]

theorem splitOn_encode (text : List Char) : (encode text).splitOn 38 = (text.splitOn '&').map encode := by
  induction text with
  | nil => rfl
  | cons c text ih =>
    have hcons : encode (c :: text) = encodeChar c ++ encode text := List.flatMap_cons
    by_cases hc : c = '&'
    · subst hc
      have hbyte : encodeChar '&' = [38] := by decide
      rw [hcons,hbyte,List.singleton_append,List.splitOn_cons_eq_if_modifyHead,
        List.splitOn_cons_eq_if_modifyHead,ih]
      rfl
    · have hmem : (38 : UInt8) ∉ encodeChar c := fun h =>
        hc (encodeChar_plain (d := '&') (by decide) (fun n hn => (hexDigit_plain hn).2.1) (by decide) h)
      rw [hcons,splitOn_append_left hmem,ih,List.splitOn_cons_eq_if_modifyHead]
      cases hs : text.splitOn '&' with
      | nil => simp [hc]
      | cons y ys =>
        simp [hc]
        rfl

theorem encode_cons (c : Char) (text : List Char) : encode (c :: text) = encodeChar c ++ encode text :=
  List.flatMap_cons

theorem encode_semicolon : 59 ∈ encode text ↔ ';' ∈ text := by
  constructor
  · intro h
    by_contra hno
    exact encode_mem (d := ';') (by decide) (fun n hn => (hexDigit_plain hn).2.2.1) (by decide) hno h
  · exact fun h => List.mem_flatMap.mpr ⟨';',h,by decide⟩

theorem encodeChar_ne_nil (c : Char) : encodeChar c ≠ [] := by
  intro h
  by_cases hc : c = '%'
  · subst hc
    exact absurd h (by decide)
  · have hlength := encodeChar_length c
    have hpos := List.length_pos_iff.mpr (String.utf8EncodeChar_ne_nil (c := c))
    have hcount : [c].count '%' = 0 := List.count_eq_zero_of_not_mem (by simp [Ne.symm hc])
    rw [h,hcount] at hlength
    simp only [List.length_nil,List.count_nil] at hlength
    omega

theorem encode_eq_nil : encode text = [] ↔ text = [] := by
  cases text with
  | nil => exact iff_of_true rfl rfl
  | cons c text =>
    refine iff_of_false (fun h => ?_) (List.cons_ne_nil c text)
    exact encodeChar_ne_nil c (List.append_eq_nil_iff.mp (encode_cons c text ▸ h)).1

theorem equals_encodeChar (h : c ≠ '=') : ∀ b ∈ encodeChar c, decide (b ≠ 61) = true := by
  refine fun b hb => decide_eq_true ?_
  rintro rfl
  exact h (encodeChar_plain (d := '=') (by decide) (fun n hn => (hexDigit_plain hn).2.2.2) (by decide) hb)

def keyPart (piece : List Char) : List Char := piece.takeWhile (· ≠ '=')

def valuePart (piece : List Char) : List Char := (piece.dropWhile (· ≠ '=')).drop 1

theorem takeWhile_encode (piece : List Char) : (encode piece).takeWhile (· ≠ 61) = encode (keyPart piece) := by
  induction piece with
  | nil => rfl
  | cons c piece ih =>
    by_cases hc : c = '='
    · subst hc
      rfl
    · have hkey : keyPart (c :: piece) = c :: keyPart piece := by simp [keyPart,hc]
      rw [hkey,encode_cons,encode_cons,List.takeWhile_append_of_pos (equals_encodeChar hc),ih]

theorem dropWhile_encode (piece : List Char) :
    ((encode piece).dropWhile (· ≠ 61)).drop 1 = encode (valuePart piece) := by
  induction piece with
  | nil => rfl
  | cons c piece ih =>
    by_cases hc : c = '='
    · subst hc
      rfl
    · have hvalue : valuePart (c :: piece) = valuePart piece := by simp [valuePart,hc]
      rw [hvalue,encode_cons,List.dropWhile_append_of_pos (equals_encodeChar hc),ih]

theorem parsePair_encode (piece : List Char) : parsePair (encode piece) =
    if ';' ∈ piece ∨ piece = [] then none
    else (queryUnescape (encode (keyPart piece))).bind fun key =>
      (queryUnescape (encode (valuePart piece))).map fun value => (key,value) := by
  simp only [parsePair,encode_semicolon,encode_eq_nil,takeWhile_encode,dropWhile_encode]
  split
  · rfl
  · cases queryUnescape (encode (keyPart piece)) with
    | none => rfl
    | some key =>
      cases queryUnescape (encode (valuePart piece)) with
      | none => rfl
      | some value => rfl

theorem splitOn_utf8 (text : List Char) :
    ((text.splitOn '&').map fun piece => (utf8 piece).length).sum + text.count '&' = (utf8 text).length := by
  induction text with
  | nil => rfl
  | cons c text ih =>
    have hcons : utf8 (c :: text) = String.utf8EncodeChar c ++ utf8 text := List.flatMap_cons
    rw [List.splitOn_cons_eq_if_modifyHead,hcons,List.length_append]
    by_cases hc : c = '&'
    · subst hc
      have hone : (String.utf8EncodeChar '&').length = 1 := by decide
      have hnil : (utf8 []).length = 0 := rfl
      simp only [beq_self_eq_true,if_true,List.map_cons,List.sum_cons,List.count_cons_self,hone,hnil]
      omega
    · have hcount : (c :: text).count '&' = text.count '&' := List.count_cons_of_ne hc
      have hfalse : (c == '&') = false := beq_eq_false_iff_ne.mpr hc
      rw [hcount,hfalse]
      cases hs : text.splitOn '&' with
      | nil => exact absurd hs (List.splitOn_ne_nil _ _)
      | cons y ys =>
        have hhead : utf8 (c :: y) = String.utf8EncodeChar c ++ utf8 y := List.flatMap_cons
        rw [hs] at ih
        simp only [Bool.false_eq_true,if_false,List.modifyHead_cons,List.map_cons,List.sum_cons,hhead,
          List.length_append] at ih ⊢
        omega

theorem piece_shorter {piece : List Char} (hamp : '&' ∈ text) (h : piece ∈ text.splitOn '&') :
    (utf8 piece).length < (utf8 text).length := by
  have hsum := splitOn_utf8 text
  have hpiece := List.single_le_sum (fun _ _ => Nat.zero_le _) _
    (List.mem_map_of_mem (f := fun piece => (utf8 piece).length) h)
  have hcount := List.count_pos_iff.mpr hamp
  omega

theorem utf8_prefix {s t : List Char} (h : s <+: t) (hlength : (utf8 t).length ≤ (utf8 s).length) : s = t := by
  obtain ⟨rest,rfl⟩ := h
  rw [utf8_append,List.length_append] at hlength
  cases rest with
  | nil => rw [List.append_nil]
  | cons c rest =>
    have hpos := utf8_length_pos (List.cons_ne_nil c rest)
    omega

theorem valuePart_suffix (piece : List Char) : valuePart piece <:+ piece :=
  (List.drop_suffix _ _).trans (List.dropWhile_suffix _)

theorem parsePair_some {piece : List Char} {key value : List UInt8}
    (h : parsePair (encode piece) = some (key,value)) :
    ';' ∉ piece ∧ queryUnescape (encode (keyPart piece)) = some key ∧
      queryUnescape (encode (valuePart piece)) = some value := by
  rw [parsePair_encode] at h
  split at h
  · cases h
  · rename_i hplain
    obtain ⟨key',hkey,h⟩ := Option.bind_eq_some_iff.mp h
    obtain ⟨value',hvalue,h⟩ := Option.map_eq_some_iff.mp h
    cases h
    exact ⟨fun hmem => hplain (.inl hmem),hkey,hvalue⟩

theorem valuesGet_nil (key : List UInt8) : valuesGet [] key = [] := rfl

theorem valuesGet_same (key value : List UInt8) (rest : List (List UInt8 × List UInt8)) :
    valuesGet ((key,value) :: rest) key = value := by
  simp [valuesGet]

theorem valuesGet_ne {name key : List UInt8} (h : name ≠ key) (value : List UInt8)
    (rest : List (List UInt8 × List UInt8)) : valuesGet ((name,value) :: rest) key = valuesGet rest key := by
  simp [valuesGet,h]

theorem valuesGet_cases (values : List (List UInt8 × List UInt8)) (key : List UInt8) :
    valuesGet values key = [] ∨ ∃ pair ∈ values, pair.1 = key ∧ valuesGet values key = pair.2 := by
  unfold valuesGet
  cases hfind : values.find? fun v => v.1 = key with
  | none => exact .inl rfl
  | some pair =>
    refine .inr ⟨pair,List.mem_of_find?_eq_some hfind,?_,rfl⟩
    simpa using List.find?_some hfind

end Jitsu.Lib.QueryString
