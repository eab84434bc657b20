import Jitsu.Functions.Net

namespace Jitsu.Functions

open Lib Net Spelling

def startsWith (text start : Text) : Bool := start.isPrefixOf text

def privateParts (parts : List ℕ) : Bool :=
  let first := parts.getD 0 0
  let second := parts.getD 1 0
  first = 10 || (first = 172 && second ≥ 16 && second ≤ 31) || (first = 192 && second = 168) || first = 127 ||
    first = 0 || (first = 169 && second = 254)

def isPrivateIP (addr : Text) : Bool :=
  if isIPv4 addr then privateParts (parts addr)
  else if isIPv6 addr then
    let normalized := addr.map Char.toLower
    if startsWith normalized "::ffff:".toList && isIPv4 (normalized.drop 7) then
      privateParts (parts (normalized.drop 7))
    else
      normalized = "::1".toList || startsWith normalized "fc".toList || startsWith normalized "fd".toList ||
        startsWith normalized "fe80".toList
  else false

inductive Address where
  | v4 (octets : List ℕ)
  | v6 (groups : List ℕ)
deriving DecidableEq

def addressOf (addr : Text) : Option Address :=
  if isIPv4 addr then some (.v4 (parts addr))
  else if isIPv6 addr then some (.v6 (read addr).groups)
  else none

def unspecified : List ℕ := [0,0,0,0,0,0,0,0]

def loopback : List ℕ := [0,0,0,0,0,0,0,1]

def UniqueLocal (group : ℕ) : Prop := 0xfc00 ≤ group ∧ group ≤ 0xfdff

def LinkLocal (group : ℕ) : Prop := 0xfe80 ≤ group ∧ group ≤ 0xfebf

def mappedOctets : List ℕ → Option (List ℕ)
  | [0,0,0,0,0,0xffff,high,low] => some [high / 256,high % 256,low / 256,low % 256]
  | _ => none

def Internal4 (octets : List ℕ) : Prop :=
  octets.getD 0 0 = 127 ∨ octets.getD 0 0 = 10 ∨
    (octets.getD 0 0 = 172 ∧ 16 ≤ octets.getD 1 0 ∧ octets.getD 1 0 ≤ 31) ∨
    (octets.getD 0 0 = 192 ∧ octets.getD 1 0 = 168) ∨
    (octets.getD 0 0 = 169 ∧ octets.getD 1 0 = 254) ∨
    octets = [0,0,0,0]

inductive Internal : Address → Prop
  | ipv4 {octets : List ℕ} : Internal4 octets → Internal (.v4 octets)
  | unspecified : Internal (.v6 Functions.unspecified)
  | loopback : Internal (.v6 Functions.loopback)
  | uniqueLocal {groups : List ℕ} : UniqueLocal (groups.getD 0 0) → Internal (.v6 groups)
  | linkLocal {groups : List ℕ} : LinkLocal (groups.getD 0 0) → Internal (.v6 groups)
  | mapped {groups octets : List ℕ} : mappedOctets groups = some octets → Internal4 octets →
      Internal (.v6 groups)

def ShortPrefix (group : ℕ) : Prop := group = 0xfc ∨ group = 0xfd ∨ (0xfc0 ≤ group ∧ group ≤ 0xfdf)

def dottedMapped (addr : Text) : Bool :=
  startsWith (addr.map Char.toLower) "::ffff:".toList && isIPv4 ((addr.map Char.toLower).drop 7)

structure Plain6 (addr : Text) (groups : List ℕ) : Prop where
  specified : groups ≠ unspecified
  loopback : groups = Functions.loopback → addr = "::1".toList
  linkLocal : ¬ (0xfe81 ≤ groups.getD 0 0 ∧ groups.getD 0 0 ≤ 0xfebf)
  short : ShortPrefix (groups.getD 0 0) → addr.head? = some '0'
  mapped : ∀ octets, mappedOctets groups = some octets → privateParts octets = true → dottedMapped addr = true

def Plain (addr : Text) : Address → Prop
  | .v4 _ => True
  | .v6 groups => Plain6 addr groups

def Target : Address → Prop
  | .v4 octets => privateParts octets = true
  | .v6 groups => groups = unspecified ∨ groups = loopback ∨ UniqueLocal (groups.getD 0 0) ∨
      LinkLocal (groups.getD 0 0) ∨ ∃ octets, mappedOctets groups = some octets ∧ privateParts octets = true

theorem privateParts_of_internal {octets : List ℕ} (h : Internal4 octets) : privateParts octets = true := by
  simp only [privateParts,Bool.or_eq_true,Bool.and_eq_true,decide_eq_true_eq,ge_iff_le]
  rcases h with h | h | h | h | h | rfl
  · tauto
  · tauto
  · tauto
  · tauto
  · tauto
  · decide

theorem target_of_internal {address : Address} (h : Internal address) : Target address := by
  cases h with
  | ipv4 h => exact privateParts_of_internal h
  | unspecified => exact .inl rfl
  | loopback => exact .inr (.inl rfl)
  | uniqueLocal h => exact .inr (.inr (.inl h))
  | linkLocal h => exact .inr (.inr (.inr (.inl h)))
  | mapped hm h => exact .inr (.inr (.inr (.inr ⟨_,hm,privateParts_of_internal h⟩)))

variable {c : Char}

theorem isHex_lt (h : isHex c) : c.toNat < 128 := by
  simp only [isHex,Char.isDigit,Bool.or_eq_true,Bool.and_eq_true,decide_eq_true_eq] at h
  rcases h with (⟨_,h⟩ | ⟨_,h⟩) | ⟨_,h⟩
  · exact lt_of_le_of_lt h (by decide)
  · exact lt_of_le_of_lt h (by decide)
  · exact lt_of_le_of_lt h (by decide)

structure HexDigit (c : Char) : Prop where
  lt : hexValue c < 16
  zero : c = '0' ↔ hexValue c = 0
  is0 : '0' = c.toLower ↔ hexValue c = 0
  is8 : '8' = c.toLower ↔ hexValue c = 8
  isC : 'c' = c.toLower ↔ hexValue c = 12
  isD : 'd' = c.toLower ↔ hexValue c = 13
  isE : 'e' = c.toLower ↔ hexValue c = 14
  isF : 'f' = c.toLower ↔ hexValue c = 15

theorem isHex_digit (h : isHex c) : HexDigit c := by
  have hlt := isHex_lt h
  constructor <;> revert h <;> apply forall_ascii ?_ hlt <;> decide +kernel

def forbiddenStart (addr : Text) : Bool :=
  startsWith (addr.map Char.toLower) "fc".toList || startsWith (addr.map Char.toLower) "fd".toList ||
    startsWith (addr.map Char.toLower) "fe80".toList

theorem forbiddenStart_iff {piece : Text} (h : piece = [] ∨ isSegment piece) (rest : Text) :
    forbiddenStart (piece ++ ':' :: rest) = true ↔
      UniqueLocal (segmentValue piece) ∨ segmentValue piece = 0xfe80 ∨
        (ShortPrefix (segmentValue piece) ∧ piece.head? ≠ some '0') := by
  have hcolon : ':'.toLower = ':' := by decide
  have hlength : piece.length ≤ 4 := by
    rcases h with rfl | h
    · exact Nat.zero_le 4
    · exact (isSegment_length h).2
  have hhex : ∀ c ∈ piece, HexDigit c := by
    rcases h with rfl | h
    · exact nofun
    · exact fun c hc => isHex_digit (isSegment_hex h c hc)
  match piece,hlength,hhex with
  | [],_,_ => simp [forbiddenStart,startsWith,segmentValue,UniqueLocal,ShortPrefix,hcolon]
  | [x],_,hhex =>
    have hx := hhex x (by simp)
    have hlt := hx.lt
    simp [forbiddenStart,startsWith,segmentValue,UniqueLocal,ShortPrefix,hcolon,hx.zero]
    omega
  | [x,y],_,hhex =>
    have hx := hhex x (by simp)
    have hy := hhex y (by simp)
    have hlt := hx.lt
    have hlt' := hy.lt
    simp [forbiddenStart,startsWith,segmentValue,UniqueLocal,ShortPrefix,hcolon,hx.isF,hy.isC,hy.isD,hy.isE,
      hx.zero]
    omega
  | [x,y,z],_,hhex =>
    have hx := hhex x (by simp)
    have hy := hhex y (by simp)
    have hz := hhex z (by simp)
    have hlt := hx.lt
    have hlt' := hy.lt
    have hltz := hz.lt
    simp [forbiddenStart,startsWith,segmentValue,UniqueLocal,ShortPrefix,hcolon,hx.isF,hy.isC,hy.isD,hy.isE,
      hx.zero]
    omega
  | [x,y,z,w],_,hhex =>
    have hx := hhex x (by simp)
    have hy := hhex y (by simp)
    have hz := hhex z (by simp)
    have hw := hhex w (by simp)
    have hlt' := hy.lt
    have hltz := hz.lt
    have hltw := hw.lt
    simp [forbiddenStart,startsWith,segmentValue,UniqueLocal,ShortPrefix,hx.isF,hy.isC,hy.isD,hy.isE,hz.is8,
      hw.is0,hx.zero]
    omega

theorem isUpper_lt (h : c.isUpper = true) : c.toNat < 128 := by
  simp only [Char.isUpper,decide_eq_true_eq] at h
  exact lt_of_le_of_lt h.2 (by decide)

theorem toLower_of_not_isUpper (h : c.isUpper = false) : c.toLower = c := by
  unfold Char.toLower
  rw [dif_neg]
  simpa [Char.isUpper] using h

theorem toLower_eq {k : Char} (hk : k.isLower = false) (h : c.toLower = k) : c = k := by
  cases hu : c.isUpper with
  | false => exact (toLower_of_not_isUpper hu).symm.trans h
  | true =>
    have hlower : c.toLower.isLower = true :=
      forall_ascii (P := fun c => c.isUpper = true → c.toLower.isLower = true) (by decide +kernel)
        (isUpper_lt hu) hu
    rw [h,hk] at hlower
    cases hlower

theorem map_toLower_eq {text lowered : Text} (hk : ∀ k ∈ lowered, k.isLower = false)
    (h : text.map Char.toLower = lowered) : text = lowered := by
  subst h
  have hself : ∀ c ∈ text, c = c.toLower :=
    fun c hc => toLower_eq (hk _ (List.mem_map_of_mem hc)) rfl
  exact (List.map_id'' (fun _ => rfl) text).symm.trans (List.map_congr_left hself)

theorem toLower_f (h : c.toLower = 'f') : isHex c = true ∧ hexValue c = 15 := by
  cases hu : c.isUpper with
  | false =>
    rw [toLower_of_not_isUpper hu] at h
    rw [h]
    decide
  | true =>
    exact forall_ascii (P := fun c => c.isUpper = true → c.toLower = 'f' → isHex c = true ∧ hexValue c = 15)
      (by decide +kernel) (isUpper_lt hu) hu h

theorem isOctet_le {piece : Text} (h : isOctet piece) : decimal piece ≤ 255 := by
  simp only [isOctet,Bool.and_eq_true,Bool.or_eq_true,List.all_eq_true,decide_eq_true_eq] at h
  obtain ⟨hdigits,hone | hmore⟩ := h
  · obtain ⟨c,rfl⟩ := List.length_eq_one_iff.mp hone
    have hdigit := hdigits c List.mem_cons_self
    simp only [Char.isDigit,Bool.and_eq_true,decide_eq_true_eq] at hdigit
    have hle : c.toNat ≤ '9'.toNat := hdigit.2
    have hval : decimal [c] = c.toNat - '0'.toNat := by
      show 10 * 0 + (c.toNat - '0'.toNat) = _
      omega
    rw [hval]
    exact (Nat.sub_le_sub_right hle _).trans (by decide)
  · exact hmore.2

variable {addr : Text}

theorem isIPv4_parts (h : isIPv4 addr) :
    ∃ a b c d, parts addr = [a,b,c,d] ∧ a ≤ 255 ∧ b ≤ 255 ∧ c ≤ 255 ∧ d ≤ 255 := by
  simp only [isIPv4,Bool.and_eq_true,List.all_eq_true,decide_eq_true_eq] at h
  obtain ⟨hlength,hoctets⟩ := h
  obtain ⟨p,q,r,t,hsplit⟩ := List.length_eq_four.mp hlength
  rw [hsplit] at hoctets
  exact ⟨decimal p,decimal q,decimal r,decimal t,by rw [parts,hsplit]; rfl,isOctet_le (hoctets p (by simp)),
    isOctet_le (hoctets q (by simp)),isOctet_le (hoctets r (by simp)),isOctet_le (hoctets t (by simp))⟩

theorem lowered_isIPv4 {text : Text} (h : isIPv4 (text.map Char.toLower)) : text = text.map Char.toLower := by
  refine map_toLower_eq (fun k hk => ?_) rfl
  rcases isIPv4_chars h k hk with hdigit | rfl
  · simp only [Char.isDigit,Bool.and_eq_true,decide_eq_true_eq] at hdigit
    have hlt : k.toNat < 128 := lt_of_le_of_lt hdigit.2 (by decide)
    exact forall_ascii (P := fun k => k.isDigit = true → k.isLower = false) (by decide +kernel) hlt
      (by simpa [Char.isDigit] using hdigit)
  · decide

theorem dottedMapped_text (h : dottedMapped addr = true) : ∃ piece v4,
    addr = (⟨[],some [piece,v4],none⟩ : Spelling).text ∧ isSegment piece ∧ segmentValue piece = 0xffff ∧
      isIPv4 v4 ∧ (addr.map Char.toLower).drop 7 = v4 := by
  simp only [dottedMapped,startsWith,Bool.and_eq_true,List.isPrefixOf_iff_prefix] at h
  obtain ⟨⟨rest,hrest⟩,h4⟩ := h
  obtain ⟨front,v4,rfl,hfront,hv4⟩ := List.append_eq_map_iff.mp hrest
  have hlit : "::ffff:".toList = [':',':','f','f','f','f',':'] := by decide
  have hlength : front.length = 7 := by rw [← List.length_map Char.toLower,hfront,hlit]; rfl
  have hdrop : ((front ++ v4).map Char.toLower).drop 7 = v4.map Char.toLower := by
    rw [List.map_append,List.drop_left' (by rw [List.length_map,hlength])]
  rw [hdrop] at h4 ⊢
  have hself := lowered_isIPv4 h4
  rw [← hself] at h4 ⊢
  match front,hlength,hfront with
  | [c,d,p,q,r,t,e],_,hfront =>
    simp only [hlit,List.map_cons,List.map_nil,List.cons.injEq,and_true] at hfront
    obtain ⟨hc,hd,hp,hq,hr,ht,he⟩ := hfront
    cases toLower_eq (by decide) hc
    cases toLower_eq (by decide) hd
    cases toLower_eq (by decide) he
    refine ⟨[p,q,r,t],v4,?_,?_,?_,h4,rfl⟩
    · simp [text,pieces,orEmpty,List.intercalate]
    · simp [isSegment,(toLower_f hp).1,(toLower_f hq).1,(toLower_f hr).1,(toLower_f ht).1]
    · simp [segmentValue,(toLower_f hp).2,(toLower_f hq).2,(toLower_f hr).2,(toLower_f ht).2]

theorem dottedMapped_groups (h : dottedMapped addr = true) :
    mappedOctets (read addr).groups = some (parts ((addr.map Char.toLower).drop 7)) := by
  obtain ⟨piece,v4,haddr,hpiece,hvalue,h4,hdrop⟩ := dottedMapped_text h
  have hseg : pieceGroups piece = [0xffff] := by rw [pieceGroups_segment hpiece,hvalue]
  obtain ⟨a,b,c,d,hparts,ha,hb,hc,hd⟩ := isIPv4_parts h4
  have hv4 : pieceGroups v4 = [a * 256 + b,c * 256 + d] := by simp [pieceGroups,h4,hparts]
  have hwell : (⟨[],some [piece,v4],none⟩ : Spelling).wellFormed = true := by
    simp [wellFormed,closing,hpiece,h4,hseg,hv4]
  rw [hdrop,hparts,haddr,read_text hwell]
  simp only [groups,Option.getD_some,List.flatMap_nil,List.flatMap_cons,hseg,hv4]
  show some [(a * 256 + b) / 256,(a * 256 + b) % 256,(c * 256 + d) / 256,(c * 256 + d) % 256] = some [a,b,c,d]
  rw [show (a * 256 + b) / 256 = a by omega,show (a * 256 + b) % 256 = b by omega,
    show (c * 256 + d) / 256 = c by omega,show (c * 256 + d) % 256 = d by omega]

theorem isPrivateIP_v6 (h4 : isIPv4 addr = false) (h6 : isIPv6 addr = true) :
    isPrivateIP addr = true ↔
      if dottedMapped addr then privateParts (parts ((addr.map Char.toLower).drop 7)) = true
      else addr = "::1".toList ∨ forbiddenStart addr = true := by
  have hone : addr.map Char.toLower = "::1".toList ↔ addr = "::1".toList := by
    refine ⟨map_toLower_eq fun k hk => ?_,?_⟩
    · have hall : "::1".toList.all (fun k => !k.isLower) = true := by decide
      simpa using List.all_eq_true.mp hall k hk
    · rintro rfl
      decide
  unfold isPrivateIP
  rw [if_neg (by rw [h4]; exact Bool.false_ne_true),if_pos h6]
  dsimp only
  unfold dottedMapped
  split
  · exact Iff.rfl
  · simp only [Bool.or_eq_true,decide_eq_true_eq,hone,forbiddenStart,or_assoc]

theorem read_one : (read "::1".toList).groups = loopback := by decide +kernel

theorem mappedOctets_first {groups octets : List ℕ} (h : mappedOctets groups = some octets) :
    groups.getD 0 0 = 0 ∧ groups ≠ unspecified ∧ groups ≠ loopback := by
  unfold mappedOctets at h
  split at h
  · exact ⟨rfl,by simp [unspecified],by simp [loopback]⟩
  · cases h

theorem forbiddenStart_read (h : isIPv6 addr = true) :
    forbiddenStart addr = true ↔
      UniqueLocal ((read addr).groups.getD 0 0) ∨ (read addr).groups.getD 0 0 = 0xfe80 ∨
        (ShortPrefix ((read addr).groups.getD 0 0) ∧ addr.head? ≠ some '0') := by
  simp only [isIPv6,Bool.and_eq_true,decide_eq_true_eq] at h
  obtain ⟨hwell,htext⟩ := h
  have hspec := wellFormed_spec hwell
  obtain ⟨rest,hrest⟩ := text_first hspec
  obtain ⟨others,hothers⟩ := groups_first hspec
  have hpiece : (read addr).front.headD [] = [] ∨ isSegment ((read addr).front.headD []) := by
    rcases front_head hspec with ⟨hf,_⟩ | ⟨first,more,hf,hs⟩
    · exact .inl (by rw [hf]; rfl)
    · exact .inr (by rw [hf]; exact hs)
  have hstart := forbiddenStart_iff hpiece rest
  rw [← hrest,htext] at hstart
  rw [hothers,hstart,List.getD_cons_zero]
  have haddr : addr = (read addr).front.headD [] ++ ':' :: rest := htext.symm.trans hrest
  refine or_congr_right (or_congr_right (and_congr_right fun hshort => ?_))
  cases hpiece : (read addr).front.headD [] with
  | nil =>
    rw [hpiece] at hshort
    exact absurd hshort (by simp [ShortPrefix,segmentValue])
  | cons c cs =>
    rw [hpiece] at haddr
    rw [haddr]
    exact Iff.rfl

theorem plain6_of_dottedMapped (h : dottedMapped addr = true) :
    Plain6 addr (read addr).groups := by
  have hmapped := dottedMapped_groups h
  obtain ⟨hzero,hspecified,hloopback⟩ := mappedOctets_first hmapped
  refine ⟨hspecified,fun hl => absurd hl hloopback,?_,?_,fun _ _ _ => h⟩
  · rw [hzero]
    decide
  · rw [hzero]
    exact fun hshort => absurd hshort (by simp [ShortPrefix])

theorem target_of_mapped {groups octets : List ℕ} (h : mappedOctets groups = some octets) :
    Target (.v6 groups) ↔ privateParts octets = true := by
  obtain ⟨hzero,hspecified,hloopback⟩ := mappedOctets_first h
  refine ⟨?_,fun hp => .inr (.inr (.inr (.inr ⟨octets,h,hp⟩)))⟩
  rintro (hu | hl | hul | hll | ⟨others,hsome,hp⟩)
  · exact absurd hu hspecified
  · exact absurd hl hloopback
  · rw [hzero] at hul
    exact absurd hul (by simp [UniqueLocal])
  · rw [hzero] at hll
    exact absurd hll (by simp [LinkLocal])
  · cases h.symm.trans hsome
    exact hp

section Undotted

variable {addr : Text} {groups : List ℕ}

def Flagged (addr : Text) (groups : List ℕ) : Prop :=
  addr = "::1".toList ∨ UniqueLocal (groups.getD 0 0) ∨ groups.getD 0 0 = 0xfe80 ∨
    (ShortPrefix (groups.getD 0 0) ∧ addr.head? ≠ some '0')

theorem flagged_outside (hout : groups.getD 0 0 = 0 ∨ 0xfe81 ≤ groups.getD 0 0 ∧ groups.getD 0 0 ≤ 0xfebf)
    (h : Flagged addr groups) : addr = "::1".toList := by
  rcases h with hone | hul | hll | ⟨hshort,_⟩
  · exact hone
  · simp only [UniqueLocal] at hul
    omega
  · omega
  · simp only [ShortPrefix] at hshort
    omega

theorem target_short (hshort : ShortPrefix (groups.getD 0 0)) : ¬ Target (.v6 groups) := by
  simp only [ShortPrefix] at hshort
  rintro (hu | hl | hul | hll | ⟨octets,hsome,_⟩)
  · rw [hu] at hshort
    exact absurd hshort (by decide)
  · rw [hl] at hshort
    exact absurd hshort (by decide)
  · simp only [UniqueLocal] at hul
    omega
  · simp only [LinkLocal] at hll
    omega
  · have hzero := (mappedOctets_first hsome).1
    omega

theorem target_flagged_iff (hone : addr = "::1".toList → groups = loopback)
    (hdotted : dottedMapped addr = false) :
    ((Flagged addr groups ↔ Target (.v6 groups)) ↔ Plain6 addr groups) := by
  constructor
  · intro h
    refine ⟨fun hu => ?_,fun hl => ?_,fun hlink => ?_,fun hshort => ?_,fun octets hsome hp => ?_⟩
    · have hloop := hone (flagged_outside (.inl (by rw [hu]; rfl)) (h.mpr (.inl hu)))
      rw [hu] at hloop
      exact absurd hloop (by decide)
    · exact flagged_outside (.inl (by rw [hl]; rfl)) (h.mpr (.inr (.inl hl)))
    · have htarget : Target (.v6 groups) := .inr (.inr (.inr (.inl ⟨by omega,hlink.2⟩)))
      have hloop := hone (flagged_outside (.inr hlink) (h.mpr htarget))
      rw [hloop] at hlink
      exact absurd hlink (by decide)
    · by_contra hhead
      exact target_short hshort (h.mp (.inr (.inr (.inr ⟨hshort,hhead⟩))))
    · obtain ⟨hzero,_,hloopback⟩ := mappedOctets_first hsome
      have htarget : Target (.v6 groups) := .inr (.inr (.inr (.inr ⟨octets,hsome,hp⟩)))
      exact absurd (hone (flagged_outside (.inl hzero) (h.mpr htarget))) hloopback
  · intro h
    constructor
    · rintro (haddr | hul | hll | ⟨hshort,hhead⟩)
      · exact .inr (.inl (hone haddr))
      · exact .inr (.inr (.inl hul))
      · exact .inr (.inr (.inr (.inl ⟨hll.ge,hll.trans_le (by decide)⟩)))
      · exact absurd (h.short hshort) hhead
    · rintro (hu | hl | hul | hll | ⟨octets,hsome,hp⟩)
      · exact absurd hu h.specified
      · exact .inl (h.loopback hl)
      · exact .inr (.inl hul)
      · have hlink := h.linkLocal
        obtain ⟨hlow,hhigh⟩ := hll
        exact .inr (.inr (.inl (by omega)))
      · have hyes := h.mapped octets hsome hp
        rw [hdotted] at hyes
        cases hyes

end Undotted

theorem target_iff_plain {address : Address} (h : addressOf addr = some address) :
    ((isPrivateIP addr = true ↔ Target address) ↔ Plain addr address) := by
  unfold addressOf at h
  split at h
  case isTrue h4 =>
    cases h
    have hanswer : isPrivateIP addr = privateParts (parts addr) := if_pos h4
    rw [hanswer]
    exact iff_of_true Iff.rfl trivial
  case isFalse h4 =>
    split at h
    case isFalse => cases h
    case isTrue h6 =>
      cases h
      rw [isPrivateIP_v6 (Bool.eq_false_iff.mpr h4) h6]
      split
      case isTrue hdotted =>
        rw [target_of_mapped (dottedMapped_groups hdotted)]
        exact iff_of_true Iff.rfl (plain6_of_dottedMapped hdotted)
      case isFalse hdotted =>
        rw [forbiddenStart_read h6]
        refine target_flagged_iff ?_ (Bool.eq_false_iff.mpr hdotted)
        rintro rfl
        exact read_one

theorem private_ip_spelling_iff {addr other : Text} {address : Address} (haddr : addressOf addr = some address)
    (hother : addressOf other = some address) :
    (isPrivateIP addr = isPrivateIP other ∧
      (Internal address → isPrivateIP addr = true ∧ isPrivateIP other = true)) ↔
      (Plain addr address ∧ Plain other address) ∨
        (¬ Plain addr address ∧ ¬ Plain other address ∧ ¬ Internal address) := by
  rw [← target_iff_plain haddr,← target_iff_plain hother]
  have htarget := @target_of_internal address
  cases isPrivateIP addr <;> cases isPrivateIP other <;> simp only [Bool.false_eq_true,reduceCtorEq] <;> tauto

theorem private_ip_spelling_mapped :
    isPrivateIP "::ffff:10.0.0.1".toList = isPrivateIP "::FFFF:10.0.0.1".toList ∧
      (Internal (.v6 [0,0,0,0,0,0xffff,0xa00,1]) →
        isPrivateIP "::ffff:10.0.0.1".toList = true ∧ isPrivateIP "::FFFF:10.0.0.1".toList = true) := by
  have hlower : addressOf "::ffff:10.0.0.1".toList = some (.v6 [0,0,0,0,0,0xffff,0xa00,1]) := by decide +kernel
  have hupper : addressOf "::FFFF:10.0.0.1".toList = some (.v6 [0,0,0,0,0,0xffff,0xa00,1]) := by decide +kernel
  have hlowerGroups : (read "::ffff:10.0.0.1".toList).groups = [0,0,0,0,0,0xffff,0xa00,1] := by decide +kernel
  have hupperGroups : (read "::FFFF:10.0.0.1".toList).groups = [0,0,0,0,0,0xffff,0xa00,1] := by decide +kernel
  refine (private_ip_spelling_iff hlower hupper).mpr (.inl ⟨?_,?_⟩)
  · exact hlowerGroups ▸ plain6_of_dottedMapped (by decide +kernel)
  · exact hupperGroups ▸ plain6_of_dottedMapped (by decide +kernel)

theorem loopback_spellings_differ :
    addressOf "::ffff:7f00:1".toList = addressOf "::ffff:127.0.0.1".toList ∧
      addressOf "::ffff:127.0.0.1".toList = some (.v6 [0,0,0,0,0,0xffff,0x7f00,1]) ∧
      Internal (.v6 [0,0,0,0,0,0xffff,0x7f00,1]) ∧
      isPrivateIP "::ffff:127.0.0.1".toList = true ∧ isPrivateIP "::ffff:7f00:1".toList = false ∧
      addressOf "0:0:0:0:0:0:0:1".toList = addressOf "::1".toList ∧
      isPrivateIP "0:0:0:0:0:0:0:1".toList = false ∧ isPrivateIP "::".toList = false ∧
      isPrivateIP "fe90::1".toList = false := by
  refine ⟨by decide +kernel,by decide +kernel,.mapped rfl (.inl rfl),by decide +kernel,by decide +kernel,
    by decide +kernel,by decide +kernel,by decide +kernel,by decide +kernel⟩

end Jitsu.Functions
