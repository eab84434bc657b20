import Jitsu.Lib.QueryString

namespace Jitsu.Destination.BulkerUrl

open Lib QueryString

def partitionParam (thread : ℕ) : List Char :=
  if 0 < thread then "&partition=".toList ++ Nat.toDigits 10 thread else []

def url (bulkerEndpoint destinationId table : List Char) (thread : ℕ) : List Char :=
  bulkerEndpoint ++ "/post/".toList ++ destinationId ++ "?tableName=".toList ++ table ++ partitionParam thread

structure Headers where
  metricsMeta : List UInt8
  streamOptions : List UInt8
  deriving DecidableEq, Repr

structure EventParams where
  tableName : List UInt8
  partition : List UInt8
  modeOverride : List UInt8
  metricsMeta : List UInt8
  streamOptions : List UInt8
  deriving DecidableEq, Repr

def nvlString (first second : List UInt8) : List UInt8 := if first ≠ [] then first else second

def eventsHandler (headers : Headers) (rawQuery : List UInt8) : EventParams :=
  let query := valuesGet (parseQuery rawQuery)
  { tableName := query (utf8 "tableName".toList)
    partition := query (utf8 "partition".toList)
    modeOverride := query (utf8 "modeOverride".toList)
    metricsMeta := nvlString headers.metricsMeta (query (utf8 "metricsMeta".toList))
    streamOptions := nvlString headers.streamOptions (query (utf8 "streamOptions".toList)) }

def intended (headers : Headers) (table : List Char) (thread : ℕ) : EventParams where
  tableName := utf8 table
  partition := if 0 < thread then utf8 (Nat.toDigits 10 thread) else []
  modeOverride := []
  metricsMeta := headers.metricsMeta
  streamOptions := headers.streamOptions

section Reaching

variable {bulkerEndpoint destinationId table : List Char} {thread : ℕ}

def effective (table : List Char) (thread : ℕ) : List Char :=
  ((table ++ partitionParam thread).rdropWhile trimmed).takeWhile (· ≠ '#')

variable {c : Char}

theorem digit_mem (h : c ∈ Nat.toDigits 10 thread) : 48 ≤ c.toNat ∧ c.toNat ≤ 57 := by
  have hdigit := Nat.isDigit_of_mem_toDigits (by decide) (by decide) h
  simpa [Char.isDigit,UInt32.le_iff_toNat_le] using hdigit

theorem partitionParam_mem (h : c ∈ partitionParam thread) : 32 < c.toNat ∧ c ≠ '#' := by
  unfold partitionParam at h
  split at h
  · rcases List.mem_append.mp h with h | h
    · have hall : ∀ c ∈ "&partition=".toList, 32 < c.toNat ∧ c ≠ '#' := by simp
      exact hall c h
    · have hdigit := digit_mem h
      refine ⟨by omega,?_⟩
      rintro rfl
      exact absurd hdigit.1 (by decide)
  · exact absurd h List.not_mem_nil

theorem rdropWhile_after {α : Type} {p : α → Bool} {x : α} (hx : p x = false) (a b : List α) :
    (a ++ x :: b).rdropWhile p = a ++ x :: b.rdropWhile p := by
  induction b using List.reverseRecOn with
  | nil => rw [List.rdropWhile_concat,hx,List.rdropWhile_nil]; rfl
  | append_singleton b y ih =>
    have hassoc : a ++ x :: (b ++ [y]) = (a ++ x :: b) ++ [y] := by simp
    rw [hassoc,List.rdropWhile_concat,List.rdropWhile_concat]
    split
    · exact ih
    · simp

theorem queryOf {base tail : List Char} (hbase : '?' ∉ base ∧ '#' ∉ base) :
    (((base ++ '?' :: tail).takeWhile (· ≠ '#')).dropWhile (· ≠ '?')).drop 1 = tail.takeWhile (· ≠ '#') := by
  have hfragment : ∀ c ∈ base, decide (c ≠ '#') = true :=
    fun c hc => decide_eq_true fun heq => hbase.2 (heq ▸ hc)
  have hquery : ∀ c ∈ base, decide (c ≠ '?') = true :=
    fun c hc => decide_eq_true fun heq => hbase.1 (heq ▸ hc)
  have hmark : ('?' :: tail).takeWhile (· ≠ '#') = '?' :: tail.takeWhile (· ≠ '#') := rfl
  rw [List.takeWhile_append_of_pos hfragment,hmark,List.dropWhile_append_of_pos hquery]
  rfl

theorem tail_plain (htable : ∀ c ∈ table, 32 ≤ c.toNat) (h : c ∈ table ++ partitionParam thread) :
    tabOrNewline c = false := by
  have hbound : 32 ≤ c.toNat := by
    rcases List.mem_append.mp h with h | h
    · exact htable c h
    · exact (partitionParam_mem h).1.le
  by_contra htab
  simp only [tabOrNewline,Bool.not_eq_false,Bool.or_eq_true,decide_eq_true_eq] at htab
  rcases htab with (rfl | rfl) | rfl
  · exact absurd hbound (by decide)
  · exact absurd hbound (by decide)
  · exact absurd hbound (by decide)

def base (bulkerEndpoint destinationId : List Char) : List Char :=
  bulkerEndpoint ++ "/post/".toList ++ destinationId

theorem base_clean (hendpoint : '?' ∉ bulkerEndpoint ∧ '#' ∉ bulkerEndpoint)
    (hdestination : '?' ∉ destinationId ∧ '#' ∉ destinationId) :
    '?' ∉ base bulkerEndpoint destinationId ∧ '#' ∉ base bulkerEndpoint destinationId := by
  have hpost : '?' ∉ "/post/".toList ∧ '#' ∉ "/post/".toList := by simp
  simp only [base,List.mem_append,not_or]
  exact ⟨⟨⟨hendpoint.1,hpost.1⟩,hdestination.1⟩,⟨hendpoint.2,hpost.2⟩,hdestination.2⟩

theorem base_starts : ((base bulkerEndpoint destinationId).dropWhile trimmed).isEmpty = false := by
  have hslash : '/' ∈ base bulkerEndpoint destinationId := by simp [base]
  have hne : (base bulkerEndpoint destinationId).dropWhile trimmed ≠ [] := by
    rw [ne_eq,List.dropWhile_eq_nil_iff]
    exact fun hall => absurd (hall '/' hslash) (by decide)
  simpa using hne

theorem trimmed_url (bulkerEndpoint destinationId table : List Char) (thread : ℕ) :
    ((url bulkerEndpoint destinationId table thread).dropWhile trimmed).rdropWhile trimmed =
      (base bulkerEndpoint destinationId).dropWhile trimmed ++
        ("?tableName".toList ++ '=' :: (table ++ partitionParam thread).rdropWhile trimmed) := by
  have hurl : url bulkerEndpoint destinationId table thread = base bulkerEndpoint destinationId ++
      ("?tableName".toList ++ '=' :: (table ++ partitionParam thread)) := by
    simp [url,base]
  rw [hurl,List.dropWhile_append,base_starts]
  simp only [Bool.false_eq_true,if_false]
  rw [← List.append_assoc,rdropWhile_after (by decide),List.append_assoc]

theorem search_url (hendpoint : '?' ∉ bulkerEndpoint ∧ '#' ∉ bulkerEndpoint)
    (hdestination : '?' ∉ destinationId ∧ '#' ∉ destinationId) (htable : ∀ c ∈ table, 32 ≤ c.toNat) :
    search (url bulkerEndpoint destinationId table thread) =
      encode ("tableName=".toList ++ effective table thread) := by
  obtain ⟨tail,htail⟩ : ∃ tail, (table ++ partitionParam thread).rdropWhile trimmed = tail := ⟨_,rfl⟩
  have hclean := base_clean hendpoint hdestination
  have hkept : '?' ∉ ((base bulkerEndpoint destinationId).dropWhile trimmed).filter
    (fun c => !tabOrNewline c) ∧
      '#' ∉ ((base bulkerEndpoint destinationId).dropWhile trimmed).filter (fun c => !tabOrNewline c) := by
    have hsub : ∀ c ∈ ((base bulkerEndpoint destinationId).dropWhile trimmed).filter
      (fun c => !tabOrNewline c),
        c ∈ base bulkerEndpoint destinationId :=
      fun c hc => (List.dropWhile_suffix _).subset (List.mem_filter.mp hc).1
    exact ⟨fun h => hclean.1 (hsub _ h),fun h => hclean.2 (hsub _ h)⟩
  have hplain : ∀ c ∈ tail, (!tabOrNewline c) = true := by
    intro c hc
    rw [← htail] at hc
    rw [tail_plain htable ((List.rdropWhile_prefix _ _).subset hc)]
    rfl
  have hname : ("?tableName".toList ++ '=' :: tail).filter (fun c => !tabOrNewline c) =
      '?' :: ("tableName=".toList ++ tail) := by
    rw [List.filter_append,List.filter_cons_of_pos (by decide),List.filter_eq_self.mpr hplain]
    simp [tabOrNewline]
  have heffective : ("tableName=".toList ++ tail).takeWhile (· ≠ '#') =
      "tableName=".toList ++ effective table thread := by
    rw [effective,htail,List.takeWhile_append_of_pos (by simp)]
  simp only [search]
  rw [trimmed_url,htail,List.filter_append,hname,queryOf hkept,heffective]

end Reaching

section Reading

variable {table u piece : List Char} {thread : ℕ} {headers : Headers}

structure Plain (table : List Char) (thread : ℕ) : Prop where
  chars : ∀ c ∈ ['&','#','+','%',';'], c ∉ table
  ending : thread = 0 → table.getLast? ≠ some ' '

def tablePieces (u : List Char) (thread : ℕ) (kept : Bool) : List (List Char) :=
  (u.splitOn '&').modifyHead ("tableName=".toList ++ ·) ++
    if kept && 0 < thread then ["partition=".toList ++ Nat.toDigits 10 thread] else []

theorem digits_without {c : Char} (h : ¬(48 ≤ c.toNat ∧ c.toNat ≤ 57)) : c ∉ Nat.toDigits 10 thread :=
  fun hmem => h (digit_mem hmem)

theorem partitionParam_pos (h : 0 < thread) :
    partitionParam thread = '&' :: ("partition=".toList ++ Nat.toDigits 10 thread) := by
  rw [partitionParam,if_pos h]
  simp

theorem partitionParam_zero (h : ¬0 < thread) : partitionParam thread = [] := by
  rw [partitionParam,if_neg h]

theorem splitOn_table (u : List Char) (thread : ℕ) (kept : Bool) :
    ("tableName=".toList ++ (u ++ if kept then partitionParam thread else [])).splitOn '&' =
      tablePieces u thread kept := by
  have hname : '&' ∉ "tableName=".toList := by simp
  rw [← List.append_assoc,tablePieces,← splitOn_append_left hname]
  cases kept with
  | false => simp
  | true =>
    by_cases hthread : 0 < thread
    · have hpartition : '&' ∉ "partition=".toList ++ Nat.toDigits 10 thread := by
        simp only [List.mem_append,not_or]
        exact ⟨by simp,digits_without (by decide)⟩
      simp only [if_true,partitionParam_pos hthread,List.splitOn_append_cons_self,
        List.splitOn_eq_singleton hpartition,hthread,decide_true,Bool.and_self]
    · simp [partitionParam_zero hthread,hthread]

theorem trimmed_iff {c : Char} (h : 32 ≤ c.toNat) : trimmed c = true ↔ c = ' ' := by
  rw [trimmed,decide_eq_true_eq]
  constructor
  · intro hle
    exact Char.toNat_inj.mp (Nat.le_antisymm hle h)
  · rintro rfl
    decide

theorem takeWhile_fragment {text : List Char} (h : '#' ∉ text) : text.takeWhile (· ≠ '#') = text :=
  List.takeWhile_eq_self_iff.mpr fun _ hc => decide_eq_true fun heq => h (heq ▸ hc)

theorem effective_partitioned (hthread : 0 < thread) (hhash : '#' ∉ table) :
    effective table thread = table ++ partitionParam thread := by
  have hne : partitionParam thread ≠ [] := by
    rw [partitionParam_pos hthread]
    exact List.cons_ne_nil _ _
  have hkeep : (table ++ partitionParam thread).rdropWhile trimmed = table ++ partitionParam thread := by
    refine List.rdropWhile_eq_self_iff.mpr fun hl => ?_
    have hlast := partitionParam_mem (List.getLast_mem hne)
    rw [List.getLast_append_of_right_ne_nil _ _ hne,trimmed,decide_eq_true_eq]
    omega
  rw [effective,hkeep]
  refine takeWhile_fragment fun hmem => ?_
  rcases List.mem_append.mp hmem with hmem | hmem
  · exact hhash hmem
  · exact (partitionParam_mem hmem).2 rfl

theorem effective_unpartitioned (hthread : ¬0 < thread) (hhash : '#' ∉ table) :
    effective table thread = table.rdropWhile trimmed := by
  rw [effective,partitionParam_zero hthread,List.append_nil]
  exact takeWhile_fragment fun hmem => hhash ((List.rdropWhile_prefix _ _).subset hmem)

theorem rdropWhile_trimmed (htable : ∀ c ∈ table, 32 ≤ c.toNat) :
    table.rdropWhile trimmed = table ↔ table.getLast? ≠ some ' ' := by
  rw [List.rdropWhile_eq_self_iff]
  constructor
  · intro h hlast
    obtain ⟨hne,hspace⟩ : ∃ hne : table ≠ [], table.getLast hne = ' ' := by
      have hne : table ≠ [] := by
        rintro rfl
        cases hlast
      refine ⟨hne,?_⟩
      rw [List.getLast?_eq_some_getLast hne] at hlast
      exact Option.some.inj hlast
    exact h hne ((trimmed_iff (htable _ (List.getLast_mem hne))).mpr hspace)
  · intro h hne htrim
    refine h ?_
    rw [List.getLast?_eq_some_getLast hne,(trimmed_iff (htable _ (List.getLast_mem hne))).mp htrim]

theorem effective_cases (thread : ℕ) (htable : ∀ c ∈ table, 32 ≤ c.toNat) : ∃ (u : List Char) (kept : Bool),
    effective table thread = u ++ (if kept then partitionParam thread else []) ∧ u <+: table ∧
      (u = table → '#' ∉ table ∧ (thread = 0 → table.getLast? ≠ some ' ')) := by
  by_cases hhash : '#' ∈ table
  · obtain ⟨a,b,rfl,ha⟩ := List.eq_append_cons_of_mem hhash
    have htrim : (a ++ '#' :: b ++ partitionParam thread).rdropWhile trimmed =
        a ++ '#' :: (b ++ partitionParam thread).rdropWhile trimmed := by
      rw [List.append_assoc,List.cons_append,rdropWhile_after (by decide)]
    have hall : ∀ c ∈ a, decide (c ≠ '#') = true := fun c hc => decide_eq_true fun heq => ha (heq ▸ hc)
    refine ⟨a,false,?_,List.prefix_append _ _,fun hwhole => absurd hwhole (by simp)⟩
    rw [effective,htrim,List.takeWhile_append_of_pos hall]
    simp
  · by_cases hthread : 0 < thread
    · exact ⟨table,true,effective_partitioned hthread hhash,List.prefix_rfl,
        fun _ => ⟨hhash,fun hzero => absurd hzero hthread.ne'⟩⟩
    · refine ⟨_,false,by rw [effective_unpartitioned hthread hhash]; simp; rfl,List.rdropWhile_prefix _ _,?_⟩
      exact fun hkeep => ⟨hhash,fun _ => (rdropWhile_trimmed htable).mp hkeep⟩

theorem effective_plain (htable : ∀ c ∈ table, 32 ≤ c.toNat) (h : Plain table thread) :
    effective table thread = table ++ partitionParam thread := by
  have hhash : '#' ∉ table := h.chars '#' (by simp)
  by_cases hthread : 0 < thread
  · exact effective_partitioned hthread hhash
  · rw [effective_unpartitioned hthread hhash,partitionParam_zero hthread,List.append_nil]
    exact (rdropWhile_trimmed htable).mpr (h.ending (by omega))

theorem parseQuery_pieces (u : List Char) (thread : ℕ) (kept : Bool) :
    parseQuery (encode ("tableName=".toList ++ (u ++ if kept then partitionParam thread else []))) =
      (tablePieces u thread kept).filterMap fun piece => parsePair (encode piece) := by
  rw [parseQuery,splitOn_encode,splitOn_table,List.filterMap_map]
  rfl

theorem keyPart_name {name rest : List Char} (h : '=' ∉ name) : keyPart (name ++ '=' :: rest) = name := by
  have hall : ∀ c ∈ name, decide (c ≠ '=') = true := fun c hc => decide_eq_true fun heq => h (heq ▸ hc)
  rw [keyPart,List.takeWhile_append_of_pos hall]
  simp

theorem valuePart_name {name rest : List Char} (h : '=' ∉ name) : valuePart (name ++ '=' :: rest) = rest := by
  have hall : ∀ c ∈ name, decide (c ≠ '=') = true := fun c hc => decide_eq_true fun heq => h (heq ▸ hc)
  rw [valuePart,List.dropWhile_append_of_pos hall]
  rfl

theorem map_plusToSpace {text : List Char} : text.map plusToSpace = text ↔ '+' ∉ text := by
  induction text with
  | nil => simp
  | cons c text ih =>
    rw [List.map_cons,List.cons.injEq,ih,List.mem_cons,not_or,plusToSpace]
    refine and_congr_left fun _ => ?_
    split
    · rename_i hplus
      subst hplus
      decide
    · rename_i hplus
      exact iff_of_true rfl (Ne.symm hplus)

theorem parsePair_plain {name value : List Char} (hname : '=' ∉ name)
    (hplain : ∀ c ∈ ['+','%',';'], c ∉ name ++ value) :
    parsePair (encode (name ++ '=' :: value)) = some (utf8 name,utf8 value) := by
  have hplus := hplain '+' (by simp)
  have hpercent := hplain '%' (by simp)
  have hsemicolon := hplain ';' (by simp)
  simp only [List.mem_append,not_or] at hplus hpercent hsemicolon
  rw [parsePair_encode,keyPart_name hname,valuePart_name hname,queryUnescape_encode hpercent.1,
    queryUnescape_encode hpercent.2,map_plusToSpace.mpr hplus.1,map_plusToSpace.mpr hplus.2,if_neg]
  · rfl
  · rintro (hmem | hnil)
    · simp [hsemicolon] at hmem
    · simp at hnil

variable {u₁ : List Char} {us : List (List Char)}

section

variable (hu : u.splitOn '&' = u₁ :: us)

include hu

theorem mem_tablePieces {kept : Bool}
    (h : piece ∈ tablePieces u thread kept) :
    piece = "tableName".toList ++ '=' :: u₁ ∨ piece ∈ us ∨
      piece = "partition".toList ++ '=' :: Nat.toDigits 10 thread := by
  rw [tablePieces,hu,List.modifyHead_cons] at h
  rcases List.mem_append.mp h with h | h
  · rcases List.mem_cons.mp h with h | h
    · exact .inl (by rw [h]; simp)
    · exact .inr (.inl h)
  · split at h
    · exact .inr (.inr (by rw [List.mem_singleton.mp h]; simp))
    · exact absurd h List.not_mem_nil

theorem whole_table
    (hstart : u <+: table)
    (hlength : (utf8 table).length + 2 * u₁.count '%' = (utf8 u₁).length) :
    u₁ = table ∧ u = table ∧ '&' ∉ table ∧ '%' ∉ table := by
  have hle : (utf8 u).length ≤ (utf8 table).length := by
    obtain ⟨rest,rfl⟩ := hstart
    simp [utf8_append]
  have hamp : '&' ∉ u := by
    intro hmem
    have hshort := piece_shorter hmem (hu ▸ List.mem_cons_self)
    omega
  rw [List.splitOn_eq_singleton hamp] at hu
  cases hu
  have heq : u = table := utf8_prefix hstart (by omega)
  subst heq
  exact ⟨rfl,rfl,hamp,List.count_eq_zero.mp (by omega)⟩

theorem later_piece
    (hstart : u <+: table)
    (hpiece : piece ∈ us) : (utf8 (valuePart piece)).length < (utf8 table).length := by
  have hamp : '&' ∈ u := by
    by_contra hno
    rw [List.splitOn_eq_singleton hno] at hu
    cases hu
    exact absurd hpiece List.not_mem_nil
  have hshort := piece_shorter hamp (hu ▸ List.mem_cons_of_mem _ hpiece)
  obtain ⟨rest,rfl⟩ := hstart
  obtain ⟨front,hfront⟩ := valuePart_suffix piece
  have hsum : (utf8 front).length + (utf8 (valuePart piece)).length = (utf8 piece).length := by
    rw [← List.length_append,← utf8_append,hfront]
  simp only [utf8_append,List.length_append]
  omega

end

theorem partition_key {key : List UInt8}
    (h : queryUnescape (encode "partition".toList) = some key) : key ≠ utf8 "tableName".toList := by
  rintro rfl
  rw [queryUnescape_encode (by simp),Option.some.injEq] at h
  exact absurd (utf8_injective h) (by decide)

theorem read_table (htable : ∀ c ∈ table, 32 ≤ c.toNat)
    (hread : valuesGet (parseQuery (encode ("tableName=".toList ++ effective table thread)))
      (utf8 "tableName".toList) = utf8 table) : Plain table thread := by
  obtain ⟨u,kept,heffective,hstart,hwhole⟩ := effective_cases thread htable
  rw [heffective,parseQuery_pieces] at hread
  rcases valuesGet_cases ((tablePieces u thread kept).filterMap fun piece => parsePair (encode piece))
      (utf8 "tableName".toList) with hnone | ⟨⟨key,value⟩,hmem,rfl,hvalue⟩
  · have hnil : table = [] := utf8_injective (hread.symm.trans hnone)
    subst hnil
    exact ⟨fun _ _ => List.not_mem_nil,fun _ h => (by cases h)⟩
  · obtain ⟨piece,hpiece,hpair⟩ := List.mem_filterMap.mp hmem
    obtain ⟨hsemicolon,hkey,hunescape⟩ := parsePair_some hpair
    have hlength := unescaped_length hunescape
    have hsame : value = utf8 table := hvalue.symm.trans hread
    subst hsame
    obtain ⟨u₁,us,hu⟩ : ∃ u₁ us, u.splitOn '&' = u₁ :: us :=
      List.exists_cons_of_ne_nil (List.splitOn_ne_nil _ _)
    rcases mem_tablePieces hu hpiece with rfl | hlater | rfl
    · rw [valuePart_name (by simp)] at hlength hunescape
      obtain ⟨rfl,rfl,hamp,hpercent⟩ := whole_table hu hstart hlength
      rw [queryUnescape_encode hpercent,Option.some.injEq] at hunescape
      have hplus := map_plusToSpace.mp (utf8_injective hunescape)
      have hcut := hwhole rfl
      refine ⟨?_,hcut.2⟩
      simp only [List.mem_append,List.mem_cons,not_or] at hsemicolon
      simp only [List.forall_mem_cons]
      exact ⟨hamp,hcut.1,hplus,hpercent,hsemicolon.2.2,List.forall_mem_nil _⟩
    · have hshort := later_piece hu hstart hlater
      omega
    · rw [keyPart_name (by simp)] at hkey
      exact absurd rfl (partition_key hkey)

theorem parsed_plain (hplain : Plain table thread) :
    parseQuery (encode ("tableName=".toList ++ (table ++ partitionParam thread))) =
      (utf8 "tableName".toList,utf8 table) ::
        if 0 < thread then [(utf8 "partition".toList,utf8 (Nat.toDigits 10 thread))] else [] := by
  have hpieces := parseQuery_pieces table thread true
  rw [if_pos rfl] at hpieces
  have htable : parsePair (encode ("tableName".toList ++ '=' :: table)) =
      some (utf8 "tableName".toList,utf8 table) := by
    refine parsePair_plain (by simp) fun c hc => ?_
    simp only [List.mem_append,not_or]
    refine ⟨?_,hplain.chars c ?_⟩
    · have hall : ∀ c ∈ ['+','%',';'], c ∉ "tableName".toList := by simp
      exact hall c hc
    · have hall : ∀ c ∈ ['+','%',';'], c ∈ ['&','#','+','%',';'] := by simp
      exact hall c hc
  have hpartition : parsePair (encode ("partition".toList ++ '=' :: Nat.toDigits 10 thread)) =
      some (utf8 "partition".toList,utf8 (Nat.toDigits 10 thread)) := by
    refine parsePair_plain (by simp) fun c hc => ?_
    simp only [List.mem_append,not_or]
    refine ⟨?_,digits_without ?_⟩
    · have hall : ∀ c ∈ ['+','%',';'], c ∉ "partition".toList := by simp
      exact hall c hc
    · have hall : ∀ c ∈ ['+','%',';'], ¬(48 ≤ c.toNat ∧ c.toNat ≤ 57) := by simp
      exact hall c hc
  have hname (rest : List Char) : "tableName=".toList ++ rest = "tableName".toList ++ '=' :: rest := by simp
  have hother (rest : List Char) : "partition=".toList ++ rest = "partition".toList ++ '=' :: rest := by simp
  have hamp : '&' ∉ table := hplain.chars '&' (by simp)
  rw [hpieces,tablePieces,List.splitOn_eq_singleton hamp,List.modifyHead_cons,hname,hother]
  by_cases hthread : 0 < thread
  · simp only [hthread,decide_true,Bool.and_self,if_true,List.singleton_append]
    simp only [List.filterMap_cons,htable,hpartition,List.filterMap_nil]
  · simp only [hthread,decide_false,Bool.and_false,Bool.false_eq_true,if_false,List.append_nil]
    simp only [List.filterMap_cons,htable,List.filterMap_nil]

theorem name_ne {a b : String} (h : a ≠ b) : utf8 a.toList ≠ utf8 b.toList :=
  fun heq => h (String.toList_injective (utf8_injective heq))

theorem handled_plain (hplain : Plain table thread) (headers : Headers) :
    eventsHandler headers (encode ("tableName=".toList ++ (table ++ partitionParam thread))) =
      intended headers table thread := by
  obtain ⟨values,hvalues⟩ :
      ∃ values, parseQuery (encode ("tableName=".toList ++ (table ++ partitionParam thread))) = values := ⟨_,
        rfl⟩
  have hlist := (parsed_plain hplain).symm.trans hvalues
  have hother (name : String) (htable : "tableName" ≠ name) (hpartition : "partition" ≠ name) :
      valuesGet values (utf8 name.toList) = [] := by
    rw [← hlist,valuesGet_ne (name_ne htable)]
    split
    · rw [valuesGet_ne (name_ne hpartition),valuesGet_nil]
    · rw [valuesGet_nil]
  have htable : valuesGet values (utf8 "tableName".toList) = utf8 table := by
    rw [← hlist,valuesGet_same]
  have hpartition : valuesGet values (utf8 "partition".toList) =
      if 0 < thread then utf8 (Nat.toDigits 10 thread) else [] := by
    rw [← hlist,valuesGet_ne (name_ne (by decide))]
    split
    · rw [valuesGet_same]
    · rw [valuesGet_nil]
  have hkeep (header : List UInt8) : nvlString header [] = header := by
    cases header with
    | nil => rfl
    | cons b header => rfl
  simp only [eventsHandler,intended,hvalues,htable,hpartition,hkeep,
    hother "modeOverride" (by decide) (by decide),
    hother "metricsMeta" (by decide) (by decide),hother "streamOptions" (by decide) (by decide)]

end Reading

section Theorem

theorem table_reaches_bulker (bulkerEndpoint destinationId table : List Char) (thread : ℕ) (headers : Headers)
    (hendpoint : '?' ∉ bulkerEndpoint ∧ '#' ∉ bulkerEndpoint)
    (hdestination : '?' ∉ destinationId ∧ '#' ∉ destinationId) (htable : ∀ c ∈ table, 32 ≤ c.toNat) :
    (eventsHandler headers (search (url bulkerEndpoint destinationId table thread)) =
        intended headers table thread ↔ Plain table thread) ∧
      ∀ other, intended headers other thread = intended headers table thread → other = table := by
  refine ⟨?_,fun other h => utf8_injective (congrArg EventParams.tableName h)⟩
  rw [search_url hendpoint hdestination htable]
  constructor
  · exact fun h => read_table htable (congrArg EventParams.tableName h)
  · intro hplain
    rw [effective_plain htable hplain]
    exact handled_plain hplain headers

def sampleHeaders : Headers := ⟨utf8 "meta".toList,[]⟩

theorem table_reaches_bulker_quoted :
    eventsHandler sampleHeaders (search (url "http://bulker".toList "dst".toList "Sign Up é".toList 3)) =
      intended sampleHeaders "Sign Up é".toList 3 := by
  refine (table_reaches_bulker _ _ _ 3 sampleHeaders (by simp) (by simp) (by simp)).1.mpr ⟨by simp,?_⟩
  intro h
  cases h

theorem event_name_sets_mode :
    eventsHandler sampleHeaders
        (search (url "http://bulker".toList "dst".toList "a&modeOverride=stream&partition=7".toList 0)) =
      ⟨utf8 "a".toList,utf8 "7".toList,utf8 "stream".toList,utf8 "meta".toList,[]⟩ := by
  decide +kernel

end Theorem

end Jitsu.Destination.BulkerUrl
