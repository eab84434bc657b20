import Jitsu.Warehouse.Dedup

namespace Jitsu.Warehouse

open Lib

variable {F T : Type}

section Printing

def decode36 (cs : List Char) : ℕ := cs.foldl (fun n c => n * 36 + digitChars36.idxOf c) 0

theorem idxOf_digitChars36 : ∀ d < 36, digitChars36.idxOf (digitChars36.getD d '0') = d := by decide

theorem digitChars36_plain : ∀ d < 36, digitChars36.getD d '0' ∈ digitChars36 := by decide

variable {c : Char}

theorem mem_digits36 {n : ℕ} (h : c ∈ digits36 n) : c ∈ digitChars36 := by
  unfold digits36 at h
  split at h
  · cases List.mem_singleton.mp h
    decide
  · obtain ⟨d,hd,rfl⟩ := List.mem_map.mp h
    exact digitChars36_plain d (Nat.digits_lt_base (by decide) (List.mem_reverse.mp hd))

theorem mem_formatInt36 {i : ℤ} (h : c ∈ (formatInt36 i).toList) : c = '-' ∨ c ∈ digitChars36 := by
  rw [formatInt36,String.toList_ofList,List.mem_append] at h
  refine h.imp (fun hsign => ?_) mem_digits36
  split at hsign
  · exact List.mem_singleton.mp hsign
  · cases hsign

theorem decode36_chars (ds : List ℕ) (h : ∀ d ∈ ds, d < 36) :
    decode36 (ds.reverse.map fun d => digitChars36.getD d '0') = Nat.ofDigits 36 ds := by
  rw [decode36,List.foldl_map,List.foldl_reverse]
  induction ds with
  | nil => rfl
  | cons d ds ih =>
    rw [List.foldr_cons,ih fun e he => h e (List.mem_cons_of_mem _ he),
      idxOf_digitChars36 d (h d List.mem_cons_self),Nat.ofDigits_cons]
    omega

theorem decode36_digits36 (n : ℕ) : decode36 (digits36 n) = n := by
  unfold digits36
  split
  · next hn =>
    rw [hn]
    decide
  · rw [decode36_chars _ fun d hd => Nat.digits_lt_base (by decide) hd,Nat.ofDigits_digits]

theorem digits36_head (n : ℕ) (cs : List Char) : digits36 n ≠ '-' :: cs := by
  intro h
  have hmem : '-' ∈ digits36 n := h ▸ List.mem_cons_self
  exact absurd (mem_digits36 hmem) (by decide)

theorem formatInt36_injective {i j : ℤ} (h : formatInt36 i = formatInt36 j) : i = j := by
  have hlist := congrArg String.toList h
  rw [formatInt36,formatInt36,String.toList_ofList,String.toList_ofList] at hlist
  split at hlist <;> split at hlist
  · rw [List.singleton_append,List.singleton_append,List.cons.injEq] at hlist
    have := (decode36_digits36 i.natAbs).symm.trans ((congrArg decode36 hlist.2).trans (decode36_digits36 _))
    omega
  · exact absurd hlist.symm (digits36_head _ _)
  · exact absurd hlist (digits36_head _ _)
  · rw [List.nil_append,List.nil_append] at hlist
    have := (decode36_digits36 i.natAbs).symm.trans ((congrArg decode36 hlist).trans (decode36_digits36 _))
    omega

theorem mem_toString_int {i : ℤ} (h : c ∈ (toString i).toList) : c = '-' ∨ c.isDigit = true := by
  have hdigit {n : ℕ} (h : c ∈ n.repr.toList) : c.isDigit = true := by
    rw [Nat.toList_repr] at h
    exact Nat.isDigit_of_mem_toDigits (by decide) (by decide) h
  change c ∈ i.repr.toList at h
  cases i with
  | ofNat n => exact .inr (hdigit h)
  | negSucc n =>
    change c ∈ ("-" ++ (n + 1).repr).toList at h
    rw [String.toList_append,List.mem_append] at h
    exact h.imp List.mem_singleton.mp hdigit

end Printing

inductive KeyKind where
  | string | int | float | bool | time
  deriving DecidableEq, Repr

inductive KeyKind.Holds : KeyKind → Value F T → Prop where
  | string (s : String) : KeyKind.string.Holds (.string s)
  | int (i : ℤ) : KeyKind.int.Holds (.int .int64 i)
  | float (f : F) : KeyKind.float.Holds (.float .float64 f)
  | bool (b : Bool) : KeyKind.bool.Holds (.bool b)
  | time (t : T) : KeyKind.time.Holds (.time t)

namespace DedupSettings

variable {cfg : DedupSettings F T} {vs : List (Value F T)} {v w : Value F T}

structure Prints (cfg : DedupSettings F T) : Prop where
  null : cfg.sprint .null = "<nil>"
  bool : ∀ b, cfg.sprint (.bool b) = toString b
  int : ∀ i, cfg.sprint (.int .int64 i) = toString i
  float : ∀ f g, cfg.sprint (.float .float64 f) = cfg.sprint (.float .float64 g) → f = g
  float_text : ∀ f, cfg.sprint (.float .float64 f) ≠ "<nil>" ∧ '\x00' ∉ (cfg.sprint (.float .float64 f)).toList
  time : ∀ t u, cfg.sprint (.time t) = cfg.sprint (.time u) → t = u
  time_text : ∀ t, cfg.sprint (.time t) ≠ "<nil>"

structure KeyValues (vs : List (Value F T)) : Prop where
  kind : ∃ kind : KeyKind, ∀ v ∈ vs, v = .null ∨ kind.Holds v
  absent : .null ∈ vs → .string "<nil>" ∉ vs

structure PartValues (cfg : DedupSettings F T) (vs : List (Value F T)) : Prop where
  plain : ∀ s, .string s ∈ vs → '\x00' ∉ s.toList
  millis : ∀ t u, .time t ∈ vs → .time u ∈ vs → cfg.unixMilli t = cfg.unixMilli u → t = u

theorem toString_int_ne_nil (i : ℤ) : toString i ≠ "<nil>" := by
  intro h
  have hmem : '<' ∈ (toString i).toList := by
    rw [h]
    decide
  rcases mem_toString_int hmem with h | h <;> exact absurd h (by decide)

theorem toString_bool_ne_nil (b : Bool) : toString b ≠ "<nil>" := by cases b <;> decide

theorem toString_bool_inj {a b : Bool} (h : toString a = toString b) : a = b := by
  revert a b
  decide

theorem formatInt36_ne_nil (i : ℤ) : formatInt36 i ≠ "<nil>" := by
  intro h
  have hmem : '<' ∈ (formatInt36 i).toList := by
    rw [h]
    decide
  rcases mem_formatInt36 hmem with h | h <;> exact absurd h (by decide)

theorem pkText_null (hp : cfg.Prints) : cfg.pkText .null = "<nil>" := hp.null

variable {kind : KeyKind}

theorem pkText_ne_nil (hp : cfg.Prints) (hv : kind.Holds v) (hnil : v ≠ .string "<nil>") :
    cfg.pkText v ≠ "<nil>" := by
  cases hv with
  | string s => exact fun h => hnil (congrArg Value.string h)
  | int i => exact fun h => toString_int_ne_nil i ((hp.int i).symm.trans h)
  | float f => exact (hp.float_text f).1
  | bool b => exact fun h => toString_bool_ne_nil b ((hp.bool b).symm.trans h)
  | time t => exact hp.time_text t

theorem pkText_of_kind (hp : cfg.Prints) (hv : kind.Holds v) (hw : kind.Holds w)
    (h : cfg.pkText v = cfg.pkText w) : v = w := by
  cases hv with
  | string s =>
    cases hw with
    | string u => exact congrArg Value.string h
  | int i =>
    cases hw with
    | int j => rw [Int.repr_injective ((hp.int i).symm.trans (h.trans (hp.int j)))]
  | float f =>
    cases hw with
    | float g => rw [hp.float f g h]
  | bool a =>
    cases hw with
    | bool b => rw [toString_bool_inj ((hp.bool a).symm.trans (h.trans (hp.bool b)))]
  | time t =>
    cases hw with
    | time u => rw [hp.time t u h]

theorem pkPart_null : cfg.pkPart .null = "<nil>" := rfl

theorem pkPart_ne_nil (hp : cfg.Prints) (hv : kind.Holds v) (hnil : v ≠ .string "<nil>") :
    cfg.pkPart v ≠ "<nil>" := by
  cases hv with
  | time t => exact formatInt36_ne_nil _
  | string s => exact pkText_ne_nil hp (.string s) hnil
  | int i => exact pkText_ne_nil hp (.int i) hnil
  | float f => exact pkText_ne_nil hp (.float f) hnil
  | bool b => exact pkText_ne_nil hp (.bool b) hnil

theorem pkPart_of_kind (hp : cfg.Prints) (hs : cfg.PartValues vs) (hv : kind.Holds v)
    (hw : kind.Holds w) (hvs : v ∈ vs) (hws : w ∈ vs) (h : cfg.pkPart v = cfg.pkPart w) : v = w := by
  cases hv with
  | time t =>
    cases hw with
    | time u => rw [hs.millis t u hvs hws (formatInt36_injective h)]
  | string s =>
    cases hw with
    | string u => exact congrArg Value.string h
  | int i =>
    cases hw with
    | int j => exact pkText_of_kind hp (.int i) (.int j) h
  | float f =>
    cases hw with
    | float g => exact pkText_of_kind hp (.float f) (.float g) h
  | bool a =>
    cases hw with
    | bool b => exact pkText_of_kind hp (.bool a) (.bool b) h

theorem pkPart_plain (hp : cfg.Prints) (hs : cfg.PartValues vs) (hv : kind.Holds v)
    (hvs : v ∈ vs) : '\x00' ∉ (cfg.pkPart v).toList := by
  cases hv with
  | string s => exact hs.plain s hvs
  | float f => exact (hp.float_text f).2
  | time t =>
    intro hmem
    rcases mem_formatInt36 hmem with h | h <;> exact absurd h (by decide)
  | int i =>
    intro hmem
    change '\x00' ∈ (cfg.sprint (.int .int64 i)).toList at hmem
    rw [hp.int] at hmem
    rcases mem_toString_int hmem with h | h <;> exact absurd h (by decide)
  | bool b =>
    change '\x00' ∉ (cfg.sprint (.bool b)).toList
    rw [hp.bool]
    cases b <;> decide

theorem KeyValues.inj (h : KeyValues vs) {text : Value F T → String} (hnull : text .null = "<nil>")
    (hne : ∀ kind : KeyKind, ∀ v, kind.Holds v → v ≠ .string "<nil>" → text v ≠ "<nil>")
    (heq : ∀ kind : KeyKind, ∀ v ∈ vs, ∀ w ∈ vs, kind.Holds v → kind.Holds w → text v = text w → v = w)
    (hv : v ∈ vs) (hw : w ∈ vs) (ht : text v = text w) : v = w := by
  obtain ⟨kind,hkind⟩ := h.kind
  have hnonnull {x : Value F T} (hx : x ∈ vs) (hnil : .null ∈ vs) : x ≠ .string "<nil>" := by
    rintro rfl
    exact h.absent hnil hx
  rcases hkind v hv with rfl | hkv
  · rcases hkind w hw with rfl | hkw
    · rfl
    · exact absurd (ht.symm.trans hnull) (hne kind w hkw (hnonnull hw hv))
  · rcases hkind w hw with rfl | hkw
    · exact absurd (ht.trans hnull) (hne kind v hkv (hnonnull hv hw))
    · exact heq kind v hv w hw hkv hkw ht

def tuple (cfg : DedupSettings F T) (object : Object F T) : List (Value F T) := cfg.pkColumns.map object.getN

def column (lines : List (Object F T)) (col : String) : List (Value F T) := lines.map (Object.getN · col)

structure KeyedLines (cfg : DedupSettings F T) (lines : List (Object F T)) : Prop where
  values : ∀ col ∈ cfg.pkColumns, KeyValues (column lines col)
  parts : 1 < cfg.pkColumns.length → ∀ col ∈ cfg.pkColumns, cfg.PartValues (column lines col)

variable {lines sub : List (Object F T)} {a b : Object F T} {col : String}

theorem mem_column (ha : a ∈ lines) : a.getN col ∈ column lines col := List.mem_map_of_mem ha

theorem KeyedLines.mono (h : cfg.KeyedLines lines) (hs : ∀ a ∈ sub, a ∈ lines) : cfg.KeyedLines sub := by
  have hcol {col : String} {v : Value F T} (hv : v ∈ column sub col) : v ∈ column lines col := by
    obtain ⟨a,ha,rfl⟩ := List.mem_map.mp hv
    exact mem_column (hs a ha)
  refine ⟨fun col hc => ?_,fun hlong col hc => ?_⟩
  · obtain ⟨kind,hkind⟩ := (h.values col hc).kind
    exact ⟨⟨kind,fun v hv => hkind v (hcol hv)⟩,
      fun hnull hnil => (h.values col hc).absent (hcol hnull) (hcol hnil)⟩
  · have hparts := h.parts hlong col hc
    exact ⟨fun s hs => hparts.plain s (hcol hs),fun t u ht hu => hparts.millis t u (hcol ht) (hcol hu)⟩

theorem pkText_inj (hp : cfg.Prints) (h : KeyValues vs) (hv : v ∈ vs) (hw : w ∈ vs)
    (ht : cfg.pkText v = cfg.pkText w) : v = w :=
  h.inj (pkText_null hp) (fun _ _ => pkText_ne_nil hp) (fun _ _ _ _ _ => pkText_of_kind hp) hv hw ht

theorem pkPart_inj (hp : cfg.Prints) (h : KeyValues vs) (hs : cfg.PartValues vs) (hv : v ∈ vs) (hw : w ∈ vs)
    (ht : cfg.pkPart v = cfg.pkPart w) : v = w :=
  h.inj pkPart_null (fun _ _ => pkPart_ne_nil hp)
    (fun _ _ hv _ hw hkv hkw => pkPart_of_kind hp hs hkv hkw hv hw) hv hw ht

theorem KeyValues.pkPart_plain (hp : cfg.Prints) (h : KeyValues vs) (hs : cfg.PartValues vs) (hv : v ∈ vs) :
    '\x00' ∉ (cfg.pkPart v).toList := by
  obtain ⟨kind,hkind⟩ := h.kind
  rcases hkind v hv with rfl | hkv
  · rw [pkPart_null]
    decide
  · exact DedupSettings.pkPart_plain hp hs hkv hv

def pkParts (cfg : DedupSettings F T) (object : Object F T) : List (List Char) :=
  cfg.pkColumns.map fun col => (cfg.pkPart (object.getN col)).toList

theorem KeyedLines.parts_inj (h : cfg.KeyedLines lines) (hp : cfg.Prints) (hlong : 1 < cfg.pkColumns.length)
    (ha : a ∈ lines) (hb : b ∈ lines)
    (heq : ['\x00'].intercalate (cfg.pkParts a) = ['\x00'].intercalate (cfg.pkParts b)) :
    cfg.tuple a = cfg.tuple b := by
  have hsplit {a : Object F T} (ha : a ∈ lines) :
      List.splitOn '\x00' (['\x00'].intercalate (cfg.pkParts a)) = cfg.pkParts a := by
    refine List.splitOn_intercalate _ (fun l hl => ?_) fun hnil => cfg.keyed (List.map_eq_nil_iff.mp hnil)
    obtain ⟨col,hc,rfl⟩ := List.mem_map.mp hl
    exact (h.values col hc).pkPart_plain hp (h.parts hlong col hc) (mem_column ha)
  have hparts : cfg.pkParts a = cfg.pkParts b := by rw [← hsplit ha,heq,hsplit hb]
  refine List.map_congr_left fun col hc => ?_
  have hpart := List.map_inj_left.mp hparts col hc
  exact pkPart_inj hp (h.values col hc) (h.parts hlong col hc) (mem_column ha) (mem_column hb)
    (String.toList_injective hpart)

theorem getPKValue_long (hlong : 1 < cfg.pkColumns.length) (a : Object F T) :
    cfg.getPKValue a = some (String.ofList (['\x00'].intercalate (cfg.pkParts a))) := by
  unfold getPKValue pkParts
  match hcols : cfg.pkColumns with
  | [] => cases hcols ▸ hlong
  | [col] => simp [hcols] at hlong
  | c :: d :: rest => rfl

theorem getPKValue_single (hcols : cfg.pkColumns = [col]) (a : Object F T) :
    cfg.getPKValue a = some (cfg.pkText (a.getN col)) := by rw [getPKValue,hcols]

theorem single_or_long (cfg : DedupSettings F T) :
    (∃ col, cfg.pkColumns = [col]) ∨ 1 < cfg.pkColumns.length := by
  match hcols : cfg.pkColumns with
  | [] => exact absurd hcols cfg.keyed
  | [col] => exact .inl ⟨col,rfl⟩
  | c :: d :: rest => exact .inr (Nat.succ_lt_succ (Nat.succ_pos _))

theorem getPKValue_of_tuple (h : cfg.tuple a = cfg.tuple b) : cfg.getPKValue a = cfg.getPKValue b := by
  have hcols : ∀ col ∈ cfg.pkColumns, a.getN col = b.getN col := fun col hc => List.map_inj_left.mp h col hc
  rcases cfg.single_or_long with ⟨col,hcol⟩ | hlong
  · rw [getPKValue_single hcol,getPKValue_single hcol,hcols col (hcol ▸ List.mem_cons_self)]
  · rw [getPKValue_long hlong,getPKValue_long hlong,pkParts,pkParts]
    rw [List.map_congr_left fun col hc => by rw [hcols col hc]]

theorem KeyedLines.getPKValue_inj (h : cfg.KeyedLines lines) (hp : cfg.Prints) (ha : a ∈ lines)
    (hb : b ∈ lines) :
    cfg.getPKValue a = cfg.getPKValue b ↔ cfg.tuple a = cfg.tuple b := by
  refine ⟨fun heq => ?_,getPKValue_of_tuple⟩
  rcases cfg.single_or_long with ⟨col,hcol⟩ | hlong
  · rw [getPKValue_single hcol,getPKValue_single hcol,Option.some.injEq] at heq
    rw [tuple,tuple,hcol,List.map_singleton,List.map_singleton,
      pkText_inj hp (h.values col (hcol ▸ List.mem_cons_self)) (mem_column ha) (mem_column hb) heq]
  · rw [getPKValue_long hlong,getPKValue_long hlong,Option.some.injEq] at heq
    exact h.parts_inj hp hlong ha hb (String.ofList_injective heq)

end DedupSettings

end Jitsu.Warehouse
