import Jitsu.Lib.Base64
import Jitsu.Lib.Splitting
import Jitsu.Lib.Utf8

namespace Jitsu.Bulker.TopicNames

open Lib

abbrev Text := List UInt8

def ascii (s : String) : Text := s.toList.map fun c => UInt8.ofNat c.toNat

def decimal (n : ℕ) : Text := (Nat.toDigits 10 n).map fun c => UInt8.ofNat c.toNat

def retryTopicMode : Text := ascii "retry"

def deadTopicMode : Text := ascii "dead"

def topicLengthLimit : ℕ := 249

inductive TopicError where
  | mismatch (topic : Text)
  | undecodable (topic : Text)
  | tooLong (topicId : Text) (length : ℕ)
  deriving DecidableEq, Repr

structure TopicId where
  destinationId : Text
  mode : Text
  tableName : Text
  deriving DecidableEq, Repr

def isLetterOrNumber (symbol : ℕ) : Bool :=
  (97 ≤ symbol && symbol ≤ 122) || (65 ≤ symbol && symbol ≤ 90) || (48 ≤ symbol && symbol ≤ 57)

def topicSymbol (symbol : ℕ) : Bool :=
  isLetterOrNumber symbol || symbol = 95 || symbol = 45 || symbol = 46

def isValidTopicName (str : Text) : Bool := (Utf8.runes str).all topicSymbol

def parseTopicId (topic : Text) : Except TopicError TopicId :=
  match splitAfter (ascii "in.id.") topic with
  | [_,usefulTopicInfo] =>
    match splitN (ascii ".") 5 usefulTopicInfo with
    | [destinationId,m,mode,tableEncoding,name] =>
      if m ≠ ascii "m" ∨ tableEncoding ≠ ascii "t" ∧ tableEncoding ≠ ascii "b64" then .error (.mismatch topic)
      else
        let tableName := (split (ascii ".p.") name).headD []
        if tableEncoding = ascii "b64" then
          match Base64.decodeString tableName with
          | some b => .ok ⟨destinationId,mode,b⟩
          | none => .error (.undecodable topic)
        else .ok ⟨destinationId,mode,tableName⟩
    | _ => .error (.mismatch topic)
  | _ => .error (.mismatch topic)

def special (mode : Text) : Bool := mode = retryTopicMode || mode = deadTopicMode

def encodedName (allTablesToken mode tableName : Text) : Text :=
  if special mode then ascii ".t." ++ allTablesToken
  else if isValidTopicName tableName then ascii ".t." ++ tableName
  else ascii ".b64." ++ Base64.encodeToString tableName

def partitionSuffix (partition : ℤ) : Text :=
  if 0 < partition then ascii ".p." ++ decimal partition.toNat else []

def makeTopicId (allTablesToken destinationId mode tableName namespacing : Text) (partition : ℤ)
    (checkLength : Bool) : Except TopicError Text :=
  let topicId := namespacing ++ ascii "in.id." ++ destinationId ++ ascii ".m." ++ mode ++
    encodedName allTablesToken mode tableName ++ partitionSuffix partition
  if checkLength && topicLengthLimit < topicId.length then .error (.tooLong topicId topicId.length)
  else .ok topicId

section Separators

variable {d s rest : Text}

theorem ascii_dot : ascii "." = [46] := rfl

theorem ascii_marker : ascii "in.id." = [105,110,46,105,100,46] := rfl

theorem ascii_partition : ascii ".p." = [46,112,46] := rfl

theorem cut_dot (h : 46 ∉ d) : (d ++ 46 :: rest).dropInfix? (ascii ".") = some (d,rest) := by
  have hno : ¬ascii "." <:+: d ++ (ascii ".").dropLast := by
    simpa [ascii_dot,List.singleton_infix_iff] using h
  have hcut := (dropInfix_first d rest (by decide)).mpr hno
  rwa [List.append_assoc] at hcut

theorem marker_dotless (h : 46 ∉ d) : ¬ascii "in.id." <:+: d := by
  intro hinside
  exact h (hinside.subset (by decide))

theorem marker_step (hd : 46 ∉ d) (h : ascii "in.id." <:+: d ++ 46 :: rest) :
    ascii "in.id." <:+: rest ∨ ascii "in" <:+ d ∧ ascii "id." <+: rest := by
  obtain ⟨p,q,hpq⟩ := h
  rw [List.append_assoc] at hpq
  rcases List.append_eq_append_iff.mp hpq with ⟨tail,hd',hrest⟩ | ⟨tail,hp,hrest⟩
  · rw [ascii_marker] at hrest
    rcases tail with _ | ⟨x,_ | ⟨y,_ | ⟨z,tail⟩⟩⟩
    · simp at hrest
    · simp at hrest
    · simp only [List.cons_append,List.nil_append,List.cons.injEq,true_and] at hrest
      obtain ⟨rfl,rfl,rfl⟩ := hrest
      exact .inr ⟨⟨p,hd'.symm⟩,⟨q,rfl⟩⟩
    · simp only [List.cons_append,List.cons.injEq] at hrest
      obtain ⟨-,-,rfl,-⟩ := hrest
      exact absurd (hd' ▸ by simp) hd
  · cases tail with
    | nil => simp [ascii_marker] at hrest
    | cons x tail =>
      simp only [List.cons_append,List.cons.injEq] at hrest
      exact .inl ⟨tail,q,by rw [List.append_assoc]; exact hrest.2.symm⟩

theorem marker_cons (hd : 46 ∉ d) (hrest : ¬(ascii "in" <:+ d ∧ ascii "id." <+: rest)) :
    ascii "in.id." <:+: d ++ 46 :: rest ↔ ascii "in.id." <:+: rest := by
  refine ⟨fun h => (marker_step hd h).resolve_right hrest,fun h => ?_⟩
  exact h.trans ((List.suffix_cons 46 rest).trans (List.suffix_append d _)).isInfix

theorem marker_snoc {b : UInt8} : ascii "in.id." <:+: s ++ [b] ↔
    ascii "in.id." <:+: s ∨ 46 = b ∧ ascii "in.id" <:+ s :=
  infix_snoc (ascii "in.id")

theorem marker_overlap (h : ¬ascii "in.id." <:+: s) : ¬ascii "in.id." <:+: s ++ (ascii "in.id.").dropLast := by
  have htail : s ++ (ascii "in.id.").dropLast = ((((s ++ [105]) ++ [110]) ++ [46]) ++ [105]) ++ [100] := by
    simp [ascii_marker]
  rw [htail]
  simp only [marker_snoc,h,false_or]
  intro hinside
  rcases hinside with (((⟨h,-⟩ | ⟨h,-⟩) | ⟨-,h⟩) | ⟨h,-⟩) | ⟨h,-⟩
  · exact absurd h (by decide)
  · exact absurd h (by decide)
  · exact absurd ((suffix_snoc (ascii "in.i")).mp h).1 (by decide)
  · exact absurd h (by decide)
  · exact absurd h (by decide)

theorem partition_snoc {b : UInt8} : ascii ".p." <:+: s ++ [b] ↔
    ascii ".p." <:+: s ∨ 46 = b ∧ ascii ".p" <:+ s :=
  infix_snoc (ascii ".p")

theorem partition_overlap :
    ascii ".p." <:+: s ++ (ascii ".p.").dropLast ↔ ascii ".p." <:+: s ∨ ascii ".p" <:+ s := by
  have htail : s ++ (ascii ".p.").dropLast = (s ++ [46]) ++ [112] := by simp [ascii_partition]
  rw [htail,partition_snoc,partition_snoc]
  have hne : (46 : UInt8) ≠ 112 := by decide
  simp [hne]

end Separators

section Parsing

variable {destinationId mode encoding name namespacing : Text}

def info (destinationId mode encoding name : Text) : Text :=
  destinationId ++ 46 :: (ascii "m" ++ 46 :: (mode ++ 46 :: (encoding ++ 46 :: name)))

theorem splitN_info (hd : 46 ∉ destinationId) (hm : 46 ∉ mode) (he : 46 ∉ encoding) :
    splitN (ascii ".") 5 (info destinationId mode encoding name) =
      [destinationId,ascii "m",mode,encoding,name] := by
  have hdot : 46 ∉ ascii "m" := by decide
  rw [info,splitN_cut (cut_dot hd),splitN_cut (cut_dot hdot),splitN_cut (cut_dot hm),splitN_cut (cut_dot he)]
  rfl

theorem marker_info (hd : 46 ∉ destinationId) (hm : 46 ∉ mode)
    (he : encoding = ascii "t" ∨ encoding = ascii "b64") :
    ascii "in.id." <:+: info destinationId mode encoding name ↔ ascii "in.id." <:+: name := by
  have hone : ¬ascii "id." <+: ascii "m" ++ 46 :: (mode ++ 46 :: (encoding ++ 46 :: name)) := by
    rintro ⟨t,ht⟩
    exact absurd (List.cons.inj ht).1 (by decide)
  have htwo : ¬ascii "id." <+: encoding ++ 46 :: name := by
    rintro ⟨t,ht⟩
    rcases he with rfl | rfl
    · exact absurd (List.cons.inj ht).1 (by decide)
    · exact absurd (List.cons.inj ht).1 (by decide)
  have hthree : 46 ∉ encoding ∧ ¬ascii "in" <:+ encoding := by
    rcases he with rfl | rfl
    · decide
    · decide
  rw [info,marker_cons hd fun h => hone h.2,marker_cons (by decide) fun h => absurd h.1 (by decide),
    marker_cons hm fun h => htwo h.2,marker_cons hthree.1 fun h => hthree.2 h.1]

variable (hn : ¬ascii "in.id." <:+: namespacing) (hd : 46 ∉ destinationId)

include hn hd

theorem parse_marked (hm : 46 ∉ mode)
    (he : encoding = ascii "t" ∨ encoding = ascii "b64") (hname : ascii "in.id." <:+: name) :
    parseTopicId (namespacing ++ ascii "in.id." ++ info destinationId mode encoding name) =
      .error (.mismatch (namespacing ++ ascii "in.id." ++ info destinationId mode encoding name)) := by
  have hinfo : ascii "in.id." <:+: info destinationId mode encoding name := (marker_info hd hm he).mpr hname
  have hmore := splitAfter_more (by decide) (marker_overlap hn) hinfo
  unfold parseTopicId
  split
  · rename_i heq
    rw [heq] at hmore
    exact absurd hmore (Nat.lt_irrefl 2)
  · rfl

theorem parse_plain (hm : 46 ∉ mode)
    (hname : ¬ascii "in.id." <:+: name) :
    parseTopicId (namespacing ++ ascii "in.id." ++ info destinationId mode (ascii "t") name) =
      .ok ⟨destinationId,mode,firstPiece (ascii ".p.") name⟩ := by
  have hinfo : ¬ascii "in.id." <:+: info destinationId mode (ascii "t") name :=
    fun h => hname ((marker_info hd hm (.inl rfl)).mp h)
  rw [parseTopicId,splitAfter_two (by decide) (marker_overlap hn) hinfo]
  dsimp only
  rw [splitN_info hd hm (by decide)]
  rfl

theorem parse_encoded (hm : 46 ∉ mode)
    (hname : ¬ascii "in.id." <:+: name) {table : Text}
    (htable : Base64.decodeString (firstPiece (ascii ".p.") name) = some table) :
    parseTopicId (namespacing ++ ascii "in.id." ++ info destinationId mode (ascii "b64") name) =
      .ok ⟨destinationId,mode,table⟩ := by
  have hinfo : ¬ascii "in.id." <:+: info destinationId mode (ascii "b64") name :=
    fun h => hname ((marker_info hd hm (.inr rfl)).mp h)
  rw [parseTopicId,splitAfter_two (by decide) (marker_overlap hn) hinfo]
  dsimp only
  rw [splitN_info hd hm (by decide)]
  refine (if_neg (by decide)).trans ((if_pos rfl).trans ?_)
  have hfirst : (split (ascii ".p.") name).headD [] = firstPiece (ascii ".p.") name := rfl
  rw [hfirst,htable]

end Parsing

section RoundTrip

variable {allTablesToken destinationId mode table namespacing name topic : Text} {partition : ℤ}
  {checkLength : Bool}

def Unmarked (name : Text) (partition : ℤ) : Prop :=
  ¬ascii "in.id." <:+: name ∧ (0 < partition → ¬ascii "in.id" <:+ name)

def Undivided (name : Text) (partition : ℤ) : Prop :=
  ¬ascii ".p." <:+: name ∧ (0 < partition → ¬ascii ".p" <:+ name)

def Recoverable (allTablesToken mode table : Text) (partition : ℤ) : Prop :=
  if special mode then Unmarked allTablesToken partition
  else isValidTopicName table = true → Unmarked table partition ∧ Undivided table partition

def RoundTrips (destinationId mode table topic : Text) : Prop :=
  ∃ name, parseTopicId topic = .ok ⟨destinationId,mode,name⟩ ∧ (special mode = false → name = table)

theorem decimal_dotless (n : ℕ) : 46 ∉ decimal n := by
  intro h
  obtain ⟨c,hc,heq⟩ := List.mem_map.mp h
  have hdigit := Nat.isDigit_of_mem_toDigits (by decide) (by decide) hc
  simp only [Char.isDigit,Bool.and_eq_true,decide_eq_true_eq,ge_iff_le,UInt32.le_iff_toNat_le] at hdigit
  have hbyte : c.toNat % 256 = 46 := congrArg UInt8.toNat heq
  have hlow : 48 ≤ c.toNat := hdigit.1
  have hhigh : c.toNat ≤ 57 := hdigit.2
  omega

theorem marker_append_dotless {s t : Text} (ht : 46 ∉ t) :
    ascii "in.id." <:+: s ++ t ↔ ascii "in.id." <:+: s := by
  induction t using List.reverseRecOn with
  | nil => rw [List.append_nil]
  | append_singleton t b ih =>
    simp only [List.mem_append,List.mem_singleton,not_or] at ht
    rw [← List.append_assoc,marker_snoc,ih ht.1]
    exact or_iff_left fun h => ht.2 h.1

theorem marker_suffix : ascii "in.id." <:+: name ++ partitionSuffix partition ↔ ¬Unmarked name partition := by
  unfold Unmarked partitionSuffix
  split
  · rename_i hpartition
    have hsplit : name ++ (ascii ".p." ++ decimal partition.toNat) =
        ((name ++ [46]) ++ [112]) ++ [46] ++ decimal partition.toNat := by simp [ascii_partition]
    have hlast : ¬ascii "in.id" <:+ name ++ [46] ++ [112] := by
      intro h
      exact absurd ((suffix_snoc (ascii "in.i")).mp h).1 (by decide)
    have hne : (46 : UInt8) ≠ 112 := by decide
    rw [hsplit,marker_append_dotless (decimal_dotless _),marker_snoc,marker_snoc,marker_snoc]
    simp only [hlast,hne,hpartition,and_false,false_and,or_false,true_and,forall_const]
    tauto
  · rename_i hpartition
    simp [hpartition]

theorem firstPiece_suffix :
    firstPiece (ascii ".p.") (name ++ partitionSuffix partition) = name ↔ Undivided name partition := by
  unfold Undivided partitionSuffix
  split
  · rename_i hpartition
    rw [← List.append_assoc,firstPiece_eq_pre (by decide),partition_overlap]
    simp [hpartition]
  · rename_i hpartition
    rw [List.append_nil,firstPiece_eq_self (by decide)]
    simp [hpartition]

theorem makeTopicId_shape
    (h : makeTopicId allTablesToken destinationId mode table namespacing partition checkLength = .ok topic) :
    topic = namespacing ++ ascii "in.id." ++
      if special mode then info destinationId mode (ascii "t") (allTablesToken ++ partitionSuffix partition)
      else if isValidTopicName table then info destinationId mode (ascii "t")
        (table ++ partitionSuffix partition)
      else info destinationId mode (ascii "b64")
        (Base64.encodeToString table ++ partitionSuffix partition) := by
  have ht : ascii ".t." = 46 :: (ascii "t" ++ [46]) := rfl
  have hb : ascii ".b64." = 46 :: (ascii "b64" ++ [46]) := rfl
  have hm : ascii ".m." = 46 :: (ascii "m" ++ [46]) := rfl
  unfold makeTopicId at h
  dsimp only at h
  split at h
  · cases h
  · cases h
    unfold encodedName info
    rw [ht,hb,hm]
    split_ifs
    · simp
    · simp
    · simp

theorem encoded_unmarked : Unmarked (Base64.encodeToString table) partition := by
  have hdotless : 46 ∉ Base64.encodeToString table := fun h => (Base64.mem_encodeToString h).2.2 rfl
  exact ⟨marker_dotless hdotless,fun _ h => hdotless (h.subset (by decide))⟩

theorem encoded_undivided : Undivided (Base64.encodeToString table) partition := by
  have hdotless : 46 ∉ Base64.encodeToString table := fun h => (Base64.mem_encodeToString h).2.2 rfl
  exact ⟨fun h => hdotless (h.subset (by decide)),fun _ h => hdotless (h.subset (by decide))⟩

section

variable (hn : ¬ascii "in.id." <:+: namespacing) (hd : 46 ∉ destinationId)

include hn hd

theorem plain_roundTrips (hm : 46 ∉ mode) :
    RoundTrips destinationId mode table
        (namespacing ++ ascii "in.id." ++
          info destinationId mode (ascii "t") (name ++ partitionSuffix partition)) ↔
      Unmarked name partition ∧
        (special mode = false → firstPiece (ascii ".p.") (name ++ partitionSuffix partition) = table) := by
  by_cases hmarked : ascii "in.id." <:+: name ++ partitionSuffix partition
  · have hno : ¬Unmarked name partition := marker_suffix.mp hmarked
    refine iff_of_false ?_ fun h => hno h.1
    rintro ⟨piece,hparse,-⟩
    rw [parse_marked hn hd hm (.inl rfl) hmarked] at hparse
    cases hparse
  · have hunmarked : Unmarked name partition := not_not.mp fun h => hmarked (marker_suffix.mpr h)
    have hparse := parse_plain hn hd hm hmarked
    constructor
    · rintro ⟨piece,hpiece,htable⟩
      cases hparse.symm.trans hpiece
      exact ⟨hunmarked,htable⟩
    · rintro ⟨-,htable⟩
      exact ⟨_,hparse,htable⟩

theorem encoded_roundTrips (hm : 46 ∉ mode) :
    RoundTrips destinationId mode table (namespacing ++ ascii "in.id." ++
      info destinationId mode (ascii "b64") (Base64.encodeToString table ++ partitionSuffix partition)) := by
  have hunmarked : ¬ascii "in.id." <:+: Base64.encodeToString table ++ partitionSuffix partition :=
    fun h => marker_suffix.mp h encoded_unmarked
  refine ⟨table,parse_encoded hn hd hm hunmarked ?_,fun _ => rfl⟩
  rw [firstPiece_suffix.mpr encoded_undivided]
  exact Base64.decodeString_encodeToString table

theorem roundTrips_iff (hm : 46 ∉ mode)
    (h : makeTopicId allTablesToken destinationId mode table namespacing partition checkLength = .ok topic) :
    RoundTrips destinationId mode table topic ↔ Recoverable allTablesToken mode table partition := by
  rw [makeTopicId_shape h]
  unfold Recoverable
  split_ifs with hspecial hvalid
  · rw [plain_roundTrips hn hd hm]
    simp [hspecial]
  · rw [plain_roundTrips hn hd hm,firstPiece_suffix]
    simp [hspecial,hvalid]
  · exact iff_of_true (encoded_roundTrips hn hd hm) fun h => absurd h hvalid

end

theorem topic_round_trip (allTablesToken destinationId mode table namespacing topic : Text) (partition : ℤ)
    (checkLength : Bool) (hn : ¬ascii "in.id." <:+: namespacing) (hd : 46 ∉ destinationId) (hm : 46 ∉ mode)
    (h : makeTopicId allTablesToken destinationId mode table namespacing partition checkLength = .ok topic) :
    (RoundTrips destinationId mode table topic ↔ Recoverable allTablesToken mode table partition) ∧
      (special mode = false → Recoverable allTablesToken mode table partition →
        ∀ table' partition' checkLength', Recoverable allTablesToken mode table' partition' →
          makeTopicId allTablesToken destinationId mode table' namespacing partition' checkLength' =
            .ok topic → table' = table) := by
  refine ⟨roundTrips_iff hn hd hm h,?_⟩
  intro hmode hrecoverable table' partition' checkLength' hrecoverable' h'
  obtain ⟨name,hname,htable⟩ := (roundTrips_iff hn hd hm h).mpr hrecoverable
  obtain ⟨name',hname',htable'⟩ := (roundTrips_iff hn hd hm h').mpr hrecoverable'
  cases hname.symm.trans hname'
  rw [← htable hmode,← htable' hmode]

def topicText (table : String) (partition : ℤ) : Except TopicError Text :=
  makeTopicId (ascii "_all_") (ascii "dst") (ascii "batch") (ascii table) (ascii "prod.") partition true

theorem topic_round_trip_partitioned :
    topicText "my.table" 3 = .ok (ascii "prod.in.id.dst.m.batch.t.my.table.p.3") ∧
      RoundTrips (ascii "dst") (ascii "batch") (ascii "my.table")
        (ascii "prod.in.id.dst.m.batch.t.my.table.p.3") := by
  have hmade : topicText "my.table" 3 = .ok (ascii "prod.in.id.dst.m.batch.t.my.table.p.3") := by decide
  have hround := topic_round_trip (ascii "_all_") _ _ _ _ _ 3 true (by decide) (by decide) (by decide) hmade
  refine ⟨hmade,hround.1.mpr ?_⟩
  unfold Recoverable Unmarked Undivided
  decide

theorem partition_name_collides :
    topicText "a.p.1" 0 = topicText "a" 1 ∧
      ∃ topic, topicText "a.p.1" 0 = .ok topic ∧
        parseTopicId topic = .ok ⟨ascii "dst",ascii "batch",ascii "a"⟩ := by
  refine ⟨by decide,_,rfl,by decide⟩

end RoundTrip

end Jitsu.Bulker.TopicNames
