import Jitsu.Lib.Text

namespace Jitsu.Functions.Net

open Lib

abbrev Text := List Char

def decimal (digits : Text) : ℕ := Nat.ofDigitChars 10 digits 0

def isOctet (piece : Text) : Bool :=
  piece.all Char.isDigit && (piece.length = 1 ||
    ((piece.length = 2 || piece.length = 3) && piece.head? ≠ some '0' && decimal piece ≤ 255))

def parts (addr : Text) : List ℕ := (addr.splitOn '.').map decimal

def isIPv4 (addr : Text) : Bool := (addr.splitOn '.').length = 4 && (addr.splitOn '.').all isOctet

def hexValue (c : Char) : ℕ :=
  if c.isDigit then c.toNat - '0'.toNat
  else if c.isLower then c.toNat - 'a'.toNat + 10
  else c.toNat - 'A'.toNat + 10

def isHex (c : Char) : Bool := c.isDigit || ('a' ≤ c && c ≤ 'f') || ('A' ≤ c && c ≤ 'F')

def segmentValue (piece : Text) : ℕ := piece.foldl (fun n c => 16 * n + hexValue c) 0

def isSegment (piece : Text) : Bool := 1 ≤ piece.length && piece.length ≤ 4 && piece.all isHex

def isZoneChar (c : Char) : Bool := c.isAlphanum || c = '-' || c = '.' || c = ':'

structure Spelling where
  front : List Text
  back : Option (List Text)
  zone : Option Text
deriving DecidableEq

namespace Spelling

def orEmpty (pieces : List Text) : List Text := if pieces = [] then [[]] else pieces

def pieces (s : Spelling) : List Text :=
  match s.back with
  | none => s.front
  | some back => orEmpty s.front ++ [[]] ++ orEmpty back

def text (s : Spelling) : Text :=
  [':'].intercalate s.pieces ++ (match s.zone with
    | none => []
    | some zone => '%' :: zone)

def pieceGroups (piece : Text) : List ℕ :=
  if isIPv4 piece then
    let octets := parts piece
    [octets.getD 0 0 * 256 + octets.getD 1 0,octets.getD 2 0 * 256 + octets.getD 3 0]
  else [segmentValue piece]

def groups (s : Spelling) : List ℕ :=
  let front := s.front.flatMap pieceGroups
  let back := (s.back.getD []).flatMap pieceGroups
  front ++ List.replicate (8 - front.length - back.length) 0 ++ back

def closing (pieces : List Text) : Bool :=
  pieces.dropLast.all isSegment && pieces.getLast?.all (fun piece => isSegment piece || isIPv4 piece)

def wellFormed (s : Spelling) : Bool :=
  (match s.back with
    | none => closing s.front && (s.front.flatMap pieceGroups).length = 8
    | some back => s.front.all isSegment && closing back &&
        s.front.length + (back.flatMap pieceGroups).length ≤ 7) &&
  s.zone.all (fun zone => zone ≠ [] && zone.all isZoneChar)

def read (addr : Text) : Spelling :=
  let pieces := (addr.takeWhile (· ≠ '%')).splitOn ':'
  let zone := match addr.dropWhile (· ≠ '%') with
    | [] => none
    | _ :: zone => some zone
  if [] ∈ pieces then
    ⟨pieces.takeWhile (· ≠ []),some ((pieces.dropWhile (· ≠ [])).dropWhile (· = [])),zone⟩
  else ⟨pieces,none,zone⟩

end Spelling

open Spelling

def isIPv6 (addr : Text) : Bool := (read addr).wellFormed && (read addr).text = addr

variable {piece : Text}

theorem splitOn_dot_single (h : '.' ∉ piece) : piece.splitOn '.' = [piece] :=
  List.splitOnP_eq_singleton fun _ hc => beq_eq_false_iff_ne.mpr fun hdot => h (hdot ▸ hc)

theorem isHex_ne {c : Char} (h : isHex c) : c ≠ ':' ∧ c ≠ '%' ∧ c ≠ '.' := by
  refine ⟨?_,?_,?_⟩ <;> rintro rfl <;> exact absurd h (by decide)

theorem isSegment_hex (h : isSegment piece) : ∀ c ∈ piece, isHex c := by
  simp only [isSegment,Bool.and_eq_true,List.all_eq_true] at h
  exact h.2

theorem isSegment_length (h : isSegment piece) : 1 ≤ piece.length ∧ piece.length ≤ 4 := by
  simp only [isSegment,Bool.and_eq_true,decide_eq_true_eq] at h
  exact h.1

theorem isSegment_not_isIPv4 (h : isSegment piece) : isIPv4 piece = false := by
  have hdot : '.' ∉ piece := fun hc => (isHex_ne (isSegment_hex h _ hc)).2.2 rfl
  simp [isIPv4,splitOn_dot_single hdot]

theorem isIPv4_chars (h : isIPv4 piece) : ∀ c ∈ piece, c.isDigit ∨ c = '.' := by
  simp only [isIPv4,Bool.and_eq_true,List.all_eq_true] at h
  intro c hc
  have hjoin : ['.'].intercalate (piece.splitOn '.') = piece := List.intercalate_splitOn '.'
  rw [← hjoin] at hc
  rcases mem_intercalate hc with rfl | ⟨octet,hmem,hcoctet⟩
  · exact .inr rfl
  · have hoctet := h.2 octet hmem
    simp only [isOctet,Bool.and_eq_true,List.all_eq_true] at hoctet
    exact .inl (hoctet.1 c hcoctet)

theorem isIPv4_ne_nil (h : isIPv4 piece) : piece ≠ [] := by
  rintro rfl
  exact absurd h (by decide)

def isPiece (piece : Text) : Bool := isSegment piece || isIPv4 piece

theorem isPiece_plain (h : isPiece piece) : piece ≠ [] ∧ ':' ∉ piece ∧ '%' ∉ piece := by
  rcases (Bool.or_eq_true _ _).mp h with hs | h4
  · refine ⟨?_,fun hc => (isHex_ne (isSegment_hex hs _ hc)).1 rfl,
    fun hc => (isHex_ne (isSegment_hex hs _ hc)).2.1 rfl⟩
    rintro rfl
    exact absurd hs (by decide)
  · refine ⟨isIPv4_ne_nil h4,fun hc => ?_,fun hc => ?_⟩
    · exact (isIPv4_chars h4 _ hc).elim (by decide) (by decide)
    · exact (isIPv4_chars h4 _ hc).elim (by decide) (by decide)

namespace Spelling

variable {s : Spelling} {pieces : List Text}

theorem closing_pieces (h : closing pieces) : ∀ piece ∈ pieces, isPiece piece := by
  intro piece hmem
  simp only [closing,Bool.and_eq_true,List.all_eq_true] at h
  obtain ⟨hinit,hlast⟩ := h
  cases hl : pieces.getLast? with
  | none =>
    rw [List.getLast?_eq_none_iff] at hl
    rw [hl] at hmem
    cases hmem
  | some last =>
    rw [hl] at hlast
    have hsplit : pieces = pieces.dropLast ++ [last] := (List.dropLast_append_getLast? last hl).symm
    rw [hsplit,List.mem_append,List.mem_singleton] at hmem
    rcases hmem with hin | rfl
    · exact (Bool.or_eq_true _ _).mpr (.inl (hinit piece hin))
    · exact hlast

structure WellFormed (s : Spelling) : Prop where
  front : ∀ piece ∈ s.front, isPiece piece
  back : ∀ back, s.back = some back → (∀ piece ∈ s.front, isSegment piece) ∧ (∀ piece ∈ back, isPiece piece) ∧
    s.front.length + (back.flatMap pieceGroups).length ≤ 7
  whole : s.back = none → (∀ piece ∈ s.front.dropLast, isSegment piece) ∧
    (s.front.flatMap pieceGroups).length = 8

theorem wellFormed_spec (h : s.wellFormed) : s.WellFormed := by
  have hor : ∀ piece, isSegment piece = true → isPiece piece = true :=
    fun piece hs => (Bool.or_eq_true _ _).mpr (.inl hs)
  unfold wellFormed at h
  cases hb : s.back with
  | none =>
    simp only [hb,Bool.and_eq_true,decide_eq_true_eq] at h
    obtain ⟨⟨hclosing,hlength⟩,-⟩ := h
    refine ⟨closing_pieces hclosing,fun back hback => (nomatch hb.symm.trans hback),fun _ => ⟨?_,hlength⟩⟩
    simp only [closing,Bool.and_eq_true,List.all_eq_true] at hclosing
    exact hclosing.1
  | some found =>
    simp only [hb,Bool.and_eq_true,decide_eq_true_eq,List.all_eq_true] at h
    obtain ⟨⟨⟨hfront,hclosing⟩,hlength⟩,-⟩ := h
    refine ⟨fun piece hmem => hor piece (hfront piece hmem),fun back hback => ?_,
      fun hnone => (nomatch hb.symm.trans hnone)⟩
    cases hb.symm.trans hback
    exact ⟨hfront,closing_pieces hclosing,hlength⟩

theorem intercalate_no_zone (h : ∀ piece ∈ pieces, '%' ∉ piece) :
    '%' ∉ [':'].intercalate pieces := by
  intro hc
  rcases mem_intercalate hc with hcolon | ⟨piece,hmem,hp⟩
  · exact absurd hcolon (by decide)
  · exact h piece hmem hp

variable {piece : Text}

theorem mem_orEmpty (h : piece ∈ orEmpty pieces) :
    piece = [] ∨ piece ∈ pieces := by
  unfold orEmpty at h
  split at h
  · exact .inl (List.mem_singleton.mp h)
  · exact .inr h

section

variable (h : s.WellFormed)

include h

theorem mem_pieces (hmem : piece ∈ s.pieces) :
    piece = [] ∨ isPiece piece := by
  unfold pieces at hmem
  split at hmem
  case h_1 => exact .inr (h.front piece hmem)
  case h_2 back hb =>
    rw [List.mem_append,List.mem_append,List.mem_singleton] at hmem
    rcases hmem with (hfront | hempty) | hback
    · exact (mem_orEmpty hfront).imp_right (h.front piece)
    · exact .inl hempty
    · exact (mem_orEmpty hback).imp_right ((h.back back hb).2.1 piece)

theorem pieces_plain : ∀ piece ∈ s.pieces, ':' ∉ piece ∧ '%' ∉ piece := by
  intro piece hmem
  rcases mem_pieces h hmem with rfl | hp
  · exact ⟨List.not_mem_nil,List.not_mem_nil⟩
  · exact (isPiece_plain hp).2

theorem pieces_ne_nil : s.pieces ≠ [] := by
  unfold pieces
  split
  case h_1 hb =>
    intro hnil
    have hlength := (h.whole hb).2
    rw [hnil] at hlength
    exact absurd hlength (by decide)
  case h_2 => simp

theorem splitOn_text : ([':'].intercalate s.pieces).splitOn ':' = s.pieces :=
  List.splitOn_intercalate ':' (fun piece hmem => (pieces_plain h piece hmem).1) (pieces_ne_nil h)

theorem zone_text : s.text.takeWhile (· ≠ '%') = [':'].intercalate s.pieces ∧
    s.text.dropWhile (· ≠ '%') = (match s.zone with
      | none => []
      | some zone => '%' :: zone) := by
  have hplain : ∀ c ∈ [':'].intercalate s.pieces, decide (c ≠ '%') = true := by
    intro c hc
    refine decide_eq_true fun heq => ?_
    exact intercalate_no_zone (fun piece hmem => (pieces_plain h piece hmem).2) (heq ▸ hc)
  unfold text
  rw [List.takeWhile_append_of_pos hplain,List.dropWhile_append_of_pos hplain]
  cases s.zone with
  | none => simp
  | some zone => simp

end

theorem takeWhile_pieces {front back : List Text} (hf : ∀ piece ∈ front, isPiece piece)
    (hb : ∀ piece ∈ back, isPiece piece) :
    (orEmpty front ++ [[]] ++ orEmpty back).takeWhile (· ≠ []) = front ∧
    ((orEmpty front ++ [[]] ++ orEmpty back).dropWhile (· ≠ [])).dropWhile (· = []) = back := by
  have hfront : ∀ piece ∈ front, decide (piece ≠ []) = true :=
    fun piece hmem => decide_eq_true (isPiece_plain (hf piece hmem)).1
  have hdropped : (orEmpty back).dropWhile (· = []) = back := by
    cases back with
    | nil => rfl
    | cons piece back =>
      have hne := (isPiece_plain (hb piece List.mem_cons_self)).1
      rw [orEmpty,if_neg (List.cons_ne_nil _ _),List.dropWhile_cons_of_neg (by simpa using hne)]
  cases front with
  | nil => exact ⟨rfl,hdropped⟩
  | cons piece front =>
    rw [orEmpty,if_neg (List.cons_ne_nil _ _),List.append_assoc,List.takeWhile_append_of_pos hfront,
      List.dropWhile_append_of_pos hfront]
    exact ⟨List.append_nil _,hdropped⟩

theorem read_text (h : s.wellFormed) : read s.text = s := by
  have hspec := wellFormed_spec h
  obtain ⟨htake,hdrop⟩ := zone_text hspec
  have hzone : (match s.text.dropWhile (· ≠ '%') with
      | [] => none
      | _ :: zone => some zone) = s.zone := by
    rw [hdrop]
    cases s.zone with
    | none => rfl
    | some zone => rfl
  unfold read
  dsimp only
  rw [htake,splitOn_text hspec,hzone]
  unfold pieces
  cases hb : s.back with
  | none =>
    have hnot : [] ∉ s.front := fun hmem => (isPiece_plain (hspec.front _ hmem)).1 rfl
    dsimp only
    rw [if_neg hnot,← hb]
  | some back =>
    obtain ⟨hfront,hback⟩ := takeWhile_pieces hspec.front (hspec.back back hb).2.1
    dsimp only
    rw [if_pos (by simp),hfront,hback,← hb]

example : isIPv6 "::ffff:127.0.0.1".toList = true ∧ isIPv6 "1:2:3:4:5:6:7:8:9".toList = false ∧
    isIPv6 "1::2::3".toList = false ∧ isIPv6 "fe80::1%eth0".toList = true ∧ isIPv6 ":1".toList = false ∧
    isIPv6 "1:2:3:4:5:6:1.2.3.4".toList = true ∧ isIPv6 "::".toList = true ∧
    isIPv6 "1.2.3.4::".toList = false ∧
    isIPv6 "1:2:3:4:5:6:7::".toList = true ∧ isIPv6 "1:2:3:4:5:6:7:8::".toList = false := by
  decide +kernel

theorem pieceGroups_segment (h : isSegment piece) :
    pieceGroups piece = [segmentValue piece] := by
  simp [pieceGroups,isSegment_not_isIPv4 h]

theorem length_pieceGroups (piece : Text) : (pieceGroups piece).length ≤ 2 := by
  unfold pieceGroups
  split
  · exact le_rfl
  · exact Nat.le_succ 1

variable (h : s.WellFormed)

include h

theorem whole_tail (hb : s.back = none) :
    ∃ first next rest, s.front = first :: next :: rest ∧ isSegment first := by
  obtain ⟨hsegments,hlength⟩ := h.whole hb
  match hf : s.front with
  | [] =>
    rw [hf] at hlength
    exact absurd hlength (by decide)
  | [single] =>
    have := length_pieceGroups single
    rw [hf,List.flatMap_singleton] at hlength
    omega
  | first :: next :: rest =>
    refine ⟨first,next,rest,rfl,hsegments first ?_⟩
    rw [hf]
    exact List.mem_cons_self

theorem front_head : s.front = [] ∧ s.back.isSome ∨
    ∃ first rest, s.front = first :: rest ∧ isSegment first := by
  cases hb : s.back with
  | none =>
    obtain ⟨first,next,rest,hf,hs⟩ := whole_tail h hb
    exact .inr ⟨first,next :: rest,hf,hs⟩
  | some back =>
    cases hf : s.front with
    | nil => exact .inl ⟨rfl,rfl⟩
    | cons first rest => exact .inr ⟨first,rest,rfl,(h.back back hb).1 first (hf ▸ List.mem_cons_self)⟩

theorem text_first : ∃ rest, s.text = s.front.headD [] ++ ':' :: rest := by
  have hpieces : ∃ next rest, s.pieces = s.front.headD [] :: next :: rest := by
    unfold pieces
    cases hb : s.back with
    | none =>
      obtain ⟨first,next,rest,hf,-⟩ := whole_tail h hb
      exact ⟨next,rest,by rw [hf]; rfl⟩
    | some back =>
      cases s.front with
      | nil => exact ⟨_,_,rfl⟩
      | cons first rest =>
        cases rest with
        | nil => exact ⟨_,_,rfl⟩
        | cons next rest => exact ⟨_,_,rfl⟩
  obtain ⟨next,rest,hp⟩ := hpieces
  unfold text
  rw [hp,List.intercalate_cons_cons,List.append_assoc,List.append_assoc]
  exact ⟨_,rfl⟩

theorem groups_first : ∃ rest, s.groups = segmentValue (s.front.headD []) :: rest := by
  unfold groups
  dsimp only
  rcases front_head h with ⟨hf,hb⟩ | ⟨first,rest,hf,hs⟩
  · obtain ⟨back,hback⟩ := Option.isSome_iff_exists.mp hb
    have hlength := (h.back back hback).2.2
    rw [hf,List.length_nil,Nat.zero_add] at hlength
    obtain ⟨n,hn⟩ : ∃ n, 8 - (back.flatMap pieceGroups).length = n + 1 := ⟨_,
      (Nat.sub_add_cancel (by omega)).symm⟩
    rw [hf,hback,Option.getD_some,List.flatMap_nil,List.length_nil,Nat.sub_zero,hn,List.replicate_succ]
    exact ⟨_,rfl⟩
  · rw [hf,List.flatMap_cons,pieceGroups_segment hs]
    exact ⟨_,rfl⟩

end Spelling

end Jitsu.Functions.Net
