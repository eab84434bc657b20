import Jitsu.Ingest.Message
import Jitsu.Lib.Text

namespace Jitsu.Ingest

open Lib

def escapeChar (c : Char) : List Char :=
  if c = '"' ∨ c = '\\' then ['\\',c]
  else if c = '\n' then ['\\','n']
  else if c = '\r' then ['\\','r']
  else if c = '\t' then ['\\','t']
  else if c.toNat < 32 then ['\\','u','0','0',hexDigit (c.toNat / 16),hexDigit (c.toNat % 16)]
  else [c]

def writeString (s : String) : List Char := '"' :: (s.toList.flatMap escapeChar ++ ['"'])

def writeMember (member : String × List Char) : List Char := ',' :: (writeString member.1 ++ ':' :: member.2)

def writeObject (members : List (String × List Char)) : List Char :=
  '{' :: ((members.flatMap writeMember).tail ++ ['}'])

def writeStrings (entries : List (String × String)) : List Char :=
  writeObject (entries.map (Prod.map id writeString))

mutual

def Json.write : Json → List Char
  | .null => ['n','u','l','l']
  | .bool true => ['t','r','u','e']
  | .bool false => ['f','a','l','s','e']
  | .num literal => literal.toList
  | .str value => writeString value
  | .arr items => '[' :: ((writeItems items).tail ++ [']'])
  | .obj fields => writeObject (writeFields fields)
  | .strings entries => writeStrings entries

def writeItems : List Json → List Char
  | [] => []
  | item :: items => ',' :: (item.write ++ writeItems items)

def writeFields : List (String × Json) → List (String × List Char)
  | [] => []
  | (name,value) :: fields => (name,value.write) :: writeFields fields

end

def numberChars : List Char := ['0','1','2','3','4','5','6','7','8','9','+','-','.','e','E']

mutual

def Json.Plain : Json → Prop
  | .num literal => literal ≠ "" ∧ ∀ c ∈ literal.toList, c ∈ numberChars
  | .arr items => PlainItems items
  | .obj fields => PlainFields fields
  | .strings _ => False
  | _ => True

def PlainItems : List Json → Prop
  | [] => True
  | item :: items => item.Plain ∧ PlainItems items

def PlainFields : List (String × Json) → Prop
  | [] => True
  | (_,value) :: fields => value.Plain ∧ PlainFields fields

end

def hexValue (c : Char) : ℕ := "0123456789abcdef".toList.idxOf c

def unescape : List Char → Option (Char × List Char)
  | '\\' :: 'n' :: rest => some ('\n',rest)
  | '\\' :: 'r' :: rest => some ('\r',rest)
  | '\\' :: 't' :: rest => some ('\t',rest)
  | '\\' :: 'u' :: '0' :: '0' :: a :: b :: rest => some (Char.ofNat (16 * hexValue a + hexValue b),rest)
  | '\\' :: c :: rest => some (c,rest)
  | '"' :: _ => none
  | c :: rest => some (c,rest)
  | [] => none

theorem unescape_escapeChar (c : Char) (rest : List Char) :
    unescape (escapeChar c ++ rest) = some (c,rest) := by
  by_cases hc : c.toNat < 128
  · have hall : ∀ n < 128, unescape (escapeChar (Char.ofNat n) ++ rest) = some (Char.ofNat n,rest) := by
      intro n hn
      interval_cases n <;> rfl
    exact forall_ascii (P := fun c => unescape (escapeChar c ++ rest) = some (c,rest)) hall hc
  · have hne {d : Char} (hd : d.toNat < 128) : c ≠ d := by
      rintro rfl
      exact hc hd
    have hself : escapeChar c = [c] := by
      rw [escapeChar,if_neg (by simp [hne]),if_neg (hne (by decide)),if_neg (hne (by decide)),
        if_neg (hne (by decide)),if_neg (fun h => hc (h.trans (by decide)))]
    rw [hself]
    unfold unescape
    split <;> simp_all

variable {t u : List Char}

theorem escapes_append {as bs : List Char}
    (h : as.flatMap escapeChar ++ '"' :: t = bs.flatMap escapeChar ++ '"' :: u) : as = bs ∧ t = u := by
  induction as generalizing bs with
  | nil =>
    cases bs with
    | nil => exact ⟨rfl,(List.cons.inj h).2⟩
    | cons b bs =>
      have hu := congrArg unescape h
      rw [List.flatMap_cons,List.append_assoc,unescape_escapeChar] at hu
      cases hu
  | cons a as ih =>
    rw [List.flatMap_cons,List.append_assoc] at h
    have hu := congrArg unescape h
    rw [unescape_escapeChar] at hu
    cases bs with
    | nil => cases hu
    | cons b bs =>
      rw [List.flatMap_cons,List.append_assoc,unescape_escapeChar] at hu
      obtain ⟨rfl,hrest⟩ := Prod.mk.inj (Option.some.inj hu)
      obtain ⟨rfl,htu⟩ := ih hrest
      exact ⟨rfl,htu⟩

theorem writeString_append {a b : String} (h : writeString a ++ t = writeString b ++ u) : a = b ∧ t = u := by
  simp only [writeString,List.cons_append,List.append_assoc,List.nil_append] at h
  obtain ⟨hchars,ht⟩ := escapes_append (List.cons.inj h).2
  exact ⟨String.toList_inj.mp hchars,ht⟩

def Ended (t : List Char) : Prop := ∀ c ∈ t.head?, c ∉ numberChars

theorem number_append {as bs : List Char} (ha : ∀ c ∈ as, c ∈ numberChars) (hb : ∀ c ∈ bs, c ∈ numberChars)
    (ht : Ended t) (hu : Ended u) (h : as ++ t = bs ++ u) : as = bs ∧ t = u := by
  induction as generalizing bs with
  | nil =>
    cases bs with
    | nil => exact ⟨rfl,h⟩
    | cons b bs => exact absurd (hb b List.mem_cons_self) (ht b (by simp [show t = _ from h]))
  | cons a as ih =>
    cases bs with
    | nil => exact absurd (ha a List.mem_cons_self) (hu a (by simp [← show _ = u from h]))
    | cons b bs =>
      obtain ⟨rfl,hrest⟩ := List.cons.inj h
      obtain ⟨rfl,htu⟩ := ih (fun c hc => ha c (List.mem_cons_of_mem _ hc))
        (fun c hc => hb c (List.mem_cons_of_mem _ hc)) hrest
      exact ⟨rfl,htu⟩

inductive Kind where
  | null | bool | num | str | arr | obj
  deriving DecidableEq

def kindOf (c : Char) : Kind :=
  if c = 'n' then .null else if c = 't' ∨ c = 'f' then .bool else if c = '"' then .str
  else if c = '[' then .arr else if c = '{' then .obj else .num

def Json.kind : Json → Kind
  | .null => .null
  | .bool _ => .bool
  | .num _ => .num
  | .str _ => .str
  | .arr _ => .arr
  | .obj _ | .strings _ => .obj

theorem write_head {v : Json} (hv : v.Plain) :
    ∃ c rest, v.write = c :: rest ∧ kindOf c = v.kind ∧ c ≠ ']' := by
  cases v with
  | null | str | arr | obj => exact ⟨_,_,rfl,rfl,by decide⟩
  | bool value => cases value <;> exact ⟨_,_,rfl,rfl,by decide⟩
  | num literal =>
    have hall : ∀ c ∈ numberChars, kindOf c = .num ∧ c ≠ ']' := by simp [numberChars,kindOf]
    obtain ⟨hne,hchars⟩ := hv
    cases hl : literal.toList with
    | nil => exact absurd (String.toList_eq_nil_iff.mp hl) hne
    | cons c rest =>
      rw [hl] at hchars
      exact ⟨c,rest,hl,hall c (hchars c List.mem_cons_self)⟩
  | strings => cases hv

theorem kind_eq {v w : Json} (hv : v.Plain) (hw : w.Plain) (h : v.write ++ t = w.write ++ u) :
    v.kind = w.kind := by
  obtain ⟨c,rest,hc,hkind,-⟩ := write_head hv
  obtain ⟨c',rest',hc',hkind',-⟩ := write_head hw
  rw [hc,hc'] at h
  rw [← hkind,← hkind',(List.cons.inj h).1]

def Listed (close : Char) (as : List Char) : Prop := as = [] ∨ ∃ b rest, as = ',' :: b :: rest ∧ b ≠ close

theorem tail_append {as bs : List Char} {close : Char} (ha : Listed close as) (hb : Listed close bs)
    (h : as.tail ++ close :: t = bs.tail ++ close :: u) : as ++ close :: t = bs ++ close :: u := by
  rcases ha with rfl | ⟨a,as,rfl,ha⟩ <;> rcases hb with rfl | ⟨b,bs,rfl,hb⟩
  · exact h
  · exact absurd (List.cons.inj h).1.symm hb
  · exact absurd (List.cons.inj h).1 ha
  · exact congrArg (List.cons ',') h

theorem listed_items {items : List Json} (h : PlainItems items) : Listed ']' (writeItems items) := by
  cases items with
  | nil => exact .inl rfl
  | cons item items =>
    obtain ⟨c,rest,hc,-,hne⟩ := write_head h.1
    exact .inr ⟨c,rest ++ writeItems items,by rw [writeItems,hc]; rfl,hne⟩

theorem listed_members (members : List (String × List Char)) : Listed '}' (members.flatMap writeMember) := by
  cases members with
  | nil => exact .inl rfl
  | cons member members => exact .inr ⟨'"',_,rfl,by decide⟩

theorem Listed.ended {as : List Char} {close : Char} (ha : Listed close as) (hclose : close ∉ numberChars) :
    Ended (as ++ close :: t) := by
  rcases ha with rfl | ⟨b,rest,rfl,-⟩ <;> rintro c ⟨⟩
  · exact hclose
  · decide

mutual

theorem write_append : (v w : Json) → v.Plain → w.Plain → ∀ {t u}, Ended t → Ended u →
    v.write ++ t = w.write ++ u → v = w ∧ t = u
  | .null, w, hv, hw, t, u, _, _, h => by
    cases w <;> cases kind_eq hv hw h
    exact ⟨rfl,List.append_cancel_left h⟩
  | .bool value, w, hv, hw, t, u, _, _, h => by
    cases w with
    | bool value' =>
      cases value <;> cases value'
      · exact ⟨rfl,List.append_cancel_left h⟩
      · cases (List.cons.inj h).1
      · cases (List.cons.inj h).1
      · exact ⟨rfl,List.append_cancel_left h⟩
    | _ => cases kind_eq hv hw h
  | .num literal, w, hv, hw, t, u, ht, hu, h => by
    cases w with
    | num literal' =>
      obtain ⟨hchars,htu⟩ := number_append hv.2 hw.2 ht hu h
      exact ⟨congrArg Json.num (String.toList_inj.mp hchars),htu⟩
    | _ => cases kind_eq hv hw h
  | .str value, w, hv, hw, t, u, _, _, h => by
    cases w with
    | str value' => exact (writeString_append h).imp_left (congrArg Json.str)
    | _ => cases kind_eq hv hw h
  | .arr items, w, hv, hw, t, u, _, _, h => by
    cases w with
    | arr items' =>
      simp only [Json.write,List.cons_append,List.append_assoc,List.nil_append] at h
      have htail := tail_append (listed_items hv) (listed_items hw) (List.cons.inj h).2
      exact (items_append items items' hv hw htail).imp_left (congrArg Json.arr)
    | _ => cases kind_eq hv hw h
  | .obj fields, w, hv, hw, t, u, _, _, h => by
    cases w with
    | obj fields' =>
      simp only [Json.write,writeObject,List.cons_append,List.append_assoc,List.nil_append] at h
      have htail := tail_append (listed_members _) (listed_members _) (List.cons.inj h).2
      exact (fields_append fields fields' hv hw htail).imp_left (congrArg Json.obj)
    | strings => cases hw
    | _ => cases kind_eq hv hw h
  | .strings _, _, hv, _, _, _, _, _, _ => by cases hv

theorem items_append : (xs ys : List Json) → PlainItems xs → PlainItems ys → ∀ {t u},
    writeItems xs ++ ']' :: t = writeItems ys ++ ']' :: u → xs = ys ∧ t = u
  | [], ys, _, _, t, u, h => by
    cases ys with
    | nil => exact ⟨rfl,(List.cons.inj h).2⟩
    | cons y ys => cases (List.cons.inj h).1
  | x :: xs, ys, hxs, hys, t, u, h => by
    cases ys with
    | nil => cases (List.cons.inj h).1
    | cons y ys =>
      simp only [writeItems,List.cons_append,List.append_assoc] at h
      obtain ⟨rfl,hrest⟩ := write_append x y hxs.1 hys.1 ((listed_items hxs.2).ended (by decide))
        ((listed_items hys.2).ended (by decide)) (List.cons.inj h).2
      exact (items_append xs ys hxs.2 hys.2 hrest).imp_left (congrArg (List.cons x))

theorem fields_append : (fs gs : List (String × Json)) → PlainFields fs → PlainFields gs → ∀ {t u},
    (writeFields fs).flatMap writeMember ++ '}' :: t = (writeFields gs).flatMap writeMember ++ '}' :: u →
      fs = gs ∧ t = u
  | [], gs, _, _, t, u, h => by
    cases gs with
    | nil => exact ⟨rfl,(List.cons.inj h).2⟩
    | cons g gs => cases (List.cons.inj h).1
  | (name,value) :: fs, gs, hfs, hgs, t, u, h => by
    cases gs with
    | nil => cases (List.cons.inj h).1
    | cons g gs =>
      simp only [writeFields,List.flatMap_cons,writeMember,List.cons_append,List.append_assoc] at h
      obtain ⟨hname,hvalue⟩ := writeString_append (List.cons.inj h).2
      obtain ⟨hvalue,hrest⟩ := write_append value g.2 hfs.1 hgs.1 ((listed_members _).ended (by decide))
        ((listed_members _).ended (by decide)) (List.cons.inj hvalue).2
      exact (fields_append fs gs hfs.2 hgs.2 hrest).imp_left (congrArg₂ List.cons (Prod.ext hname hvalue))

end

theorem writeObject_inj {members members' : List (String × List Char)}
    (h : writeObject members = writeObject members') :
    members.flatMap writeMember = members'.flatMap writeMember :=
  List.append_cancel_right (tail_append (listed_members _) (listed_members _) (List.cons.inj h).2)

theorem writeStrings_inj {es es' : List (String × String)} (h : writeStrings es = writeStrings es') :
    es = es' := by
  have hfields (es : List (String × String)) : writeFields (es.map (Prod.map id Json.str)) =
      es.map (Prod.map id writeString) ∧ PlainFields (es.map (Prod.map id Json.str)) := by
    induction es with
    | nil => exact ⟨rfl,trivial⟩
    | cons e es ih => exact ⟨congrArg (List.cons _) ih.1,trivial,ih.2⟩
  have hmembers := writeObject_inj h
  rw [← (hfields es).1,← (hfields es').1] at hmembers
  have heq := (fields_append _ _ (hfields es).2 (hfields es').2 (congrArg (· ++ ['}']) hmembers)).1
  exact List.map_injective_iff.mpr (Function.injective_id.prodMap (fun _ _ => Json.str.inj)) heq

def omitEmpty (name value : String) : List (String × List Char) :=
  if value = "" then [] else [(name,writeString value)]

def IngestMessageOrigin.write (o : IngestMessageOrigin) : List Char :=
  writeObject (omitEmpty "baseUrl" o.baseUrl ++ omitEmpty "slug" o.slug ++
    omitEmpty "workspaceId" o.workspaceId ++ omitEmpty "sourceId" o.sourceId ++
    omitEmpty "sourceName" o.sourceName ++ omitEmpty "domain" o.domain ++
    if o.classic then [("classic",['t','r','u','e'])] else [])

def IngestType.text : IngestType → String
  | .browser => "browser"
  | .s2s => "s2s"
  | .writeKeyDefined => "writeKey"

def IngestMessage.write (m : IngestMessage) : List Char :=
  writeObject (("ingestType",writeString m.ingestType.text) ::
    ([("messageCreated",writeString m.messageCreated)] ++ omitEmpty "writeKey" m.writeKey ++
      [("messageId",writeString m.messageId),("type",writeString m.type),("origin",m.origin.write)] ++
      [("httpHeaders",writeStrings m.httpHeaders)] ++
      [("httpPayload",writeObject (writeFields m.httpPayload))]))

def jsonCodec : Codec String := ⟨fun m => .ok (String.ofList m.write),String.utf8ByteSize⟩

structure Codec.Faithful {β : Type} (codec : Codec β) : Prop where
  total : ∀ m, ∃ bytes, codec.marshal m = .ok bytes
  ingestType : ∀ m m', codec.marshal m = codec.marshal m' → m.ingestType = m'.ingestType
  httpHeaders : ∀ (m : IngestMessage) headers headers', codec.marshal { m with httpHeaders := headers } =
    codec.marshal { m with httpHeaders := headers' } →
    ∀ name, Entries.find name headers = Entries.find name headers'

theorem IngestType.text_injective {a b : IngestType} (h : a.text = b.text) : a = b := by
  cases a <;> cases b <;> first | rfl | exact absurd h (by decide)

theorem jsonCodec_faithful : jsonCodec.Faithful := by
  have hwrite {m m' : IngestMessage} (h : jsonCodec.marshal m = jsonCodec.marshal m') : m.write = m'.write :=
    String.ofList_injective (Except.ok.inj h)
  refine ⟨fun m => ⟨_,rfl⟩,fun m m' h => ?_,fun m headers headers' h => ?_⟩
  · have htext := writeObject_inj (hwrite h)
    simp only [List.flatMap_cons,writeMember,List.cons_append,List.append_assoc] at htext
    obtain ⟨-,hvalue⟩ := writeString_append (List.cons.inj htext).2
    exact IngestType.text_injective (writeString_append (List.cons.inj hvalue).2).1
  · have htext := writeObject_inj (hwrite h)
    simp only [List.flatMap_cons,List.flatMap_append,List.append_assoc,List.append_cancel_left_eq] at htext
    obtain ⟨-,hheaders⟩ := writeString_append (List.cons.inj (List.append_cancel_right htext)).2
    intro name
    rw [writeStrings_inj (List.cons.inj hheaders).2]

end Jitsu.Ingest
