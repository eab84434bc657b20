import Jitsu.Browser.Cookies

namespace Jitsu.Browser

open Lib

inductive Key where
  | anonId
  | userId
  | userTraits
  | groupId
  | groupTraits
deriving DecidableEq

def Key.all : List Key := [.anonId,.userId,.userTraits,.groupId,.groupTraits]

def defaultCookie2Key : Key → Text
  | .anonId => "__eventn_id".toList
  | .userId => "__eventn_uid".toList
  | .userTraits => "__eventn_id_usr".toList
  | .groupId => "__group_id".toList
  | .groupTraits => "__group_traits".toList

inductive Value (O : Type) where
  | text (value : Text)
  | object (value : O)
  | other (literal : Text)
deriving DecidableEq

structure Engine (O : Type) where
  stringify : O → Text
  parseJson : Text → Option (Value O)
  encodeURIComponent : Text → Text
  decodeURIComponent : Text → Option Text
  field : O → String → Option (Value O)
  truthyLiteral : Text → Bool

def opening : Text := "%7B%22".toList

variable {O : Type}

namespace Engine

variable (js : Engine O)

def truthy : Option (Value O) → Bool
  | none => false
  | some (.text value) => value ≠ []
  | some (.object _) => true
  | some (.other literal) => js.truthyLiteral literal

def or (left right : Option (Value O)) : Option (Value O) := if js.truthy left then left else right

def parsed (value : Text) : Option (Value O) :=
  match js.parseJson value with
  | some (.text parsed) =>
    if parsed = "true".toList ∨ parsed = "false".toList then some (.other parsed)
    else if parsed = [] then none
    else some (.text parsed)
  | some parsed => some parsed
  | none => if value = [] then none else some (.text value)

def parse : Option Text → Except String (Option (Value O))
  | none => .ok none
  | some input =>
    match if opening.isPrefixOf input then js.decodeURIComponent input else some input with
    | none => .error "URIError"
    | some value => .ok (js.parsed value)

def legacyId (traits : O) : Option (Value O) :=
  js.or (js.field traits "internal_id") (js.or (js.field traits "user_id")
    (js.or (js.field traits "id") (js.field traits "userId")))

def strVal : Value O → Text
  | .text value => value
  | .object value => js.encodeURIComponent (js.stringify value)
  | .other literal => literal

end Engine

structure Page (O : Type) where
  storageCache : Key → Option (Value O)
  jar : Jar

structure Config where
  key2cookie : Key → Text
  idsDisabled : Bool

section

variable (js : Engine O) (config : Config)

def cookieItem (jar : Jar) (key : Key) : Except String (Option (Value O)) :=
  let read (key : Key) : Option Text := getCookie (cookieText jar) (config.key2cookie key)
  match key,read key with
  | .anonId,result => .ok (result.map Value.text)
  | .userId,none => do
    let traits ← js.parse (read .userTraits)
    .ok (match traits with
      | some (.object traits) => js.legacyId traits
      | _ => none)
  | _,result => js.parse result

namespace Page

def setItem (p : Page O) (key : Key) (val : Value O) : Page O :=
  if config.idsDisabled then p
  else ⟨Function.update p.storageCache key (some val),setCookie p.jar (config.key2cookie key) (js.strVal val)⟩

def getItem (p : Page O) (key : Key) : Except String (Option (Value O)) :=
  if config.idsDisabled then .ok none
  else if js.truthy (p.storageCache key) then .ok (p.storageCache key)
  else cookieItem js config p.jar key

def reset (p : Page O) : Page O :=
  ⟨fun _ => none,Key.all.foldl (fun jar key => removeCookie jar (config.key2cookie key)) p.jar⟩

def removeItem (p : Page O) (key : Key) : Page O :=
  ⟨Function.update p.storageCache key none,removeCookie p.jar (config.key2cookie key)⟩

def reload (p : Page O) : Page O := ⟨fun _ => none,p.jar⟩

end Page

inductive Call (O : Type) where
  | setItem (key : Key) (val : Value O)
  | removeItem (key : Key)
  | reset
  | reload

def Page.call (p : Page O) : Call O → Page O
  | .setItem key val => p.setItem js config key val
  | .removeItem key => p.removeItem config key
  | .reset => p.reset config
  | .reload => p.reload

def Page.run (p : Page O) (calls : List (Call O)) : Page O := calls.foldl (fun p c => p.call js config c) p

end

def Call.record (held : Key → Option (Value O)) : Call O → Key → Option (Value O)
  | .setItem key val => Function.update held key (some val)
  | .removeItem key => Function.update held key none
  | .reset => fun _ => none
  | .reload => held

def recorded (calls : List (Call O)) : Key → Option (Value O) := calls.foldl Call.record (fun _ => none)

def Suits : Key → Value O → Prop
  | .userTraits,val => ∃ traits, val = .object traits
  | .groupTraits,val => ∃ traits, val = .object traits
  | _,val => ∃ id, val = .text id ∧ id ≠ []

structure Lawful (js : Engine O) : Prop where
  parse_stringify : ∀ o, js.parseJson (js.stringify o) = some (.object o)
  stringify_start : ∀ o, "\x7b\"".toList <+: js.stringify o ∨ js.stringify o = "\x7b\x7d".toList
  decode_encode : ∀ o, js.decodeURIComponent (js.encodeURIComponent (js.stringify o)) = some (js.stringify o)
  encode_clean : ∀ o, ';' ∉ js.encodeURIComponent (js.stringify o)
  encode_start : ∀ o, opening <+: js.encodeURIComponent (js.stringify o) ↔ "\x7b\"".toList <+: js.stringify o
  encode_percent : ∀ o, "%".toList <+: js.encodeURIComponent (js.stringify o)
  decode_start : ∀ {text value}, opening <+: text → js.decodeURIComponent text = some value →
    "\x7b".toList <+: value ∧ value.length ≤ text.length
  parse_text : ∀ {text value}, js.parseJson text = some (.text value) → value.length < text.length
  parse_percent : ∀ {text}, "%".toList <+: text → js.parseJson text = none

structure Named (config : Config) : Prop where
  clean : ∀ key, CleanName (config.key2cookie key)
  injective : Function.Injective config.key2cookie

def Readable (js : Engine O) : Key → Value O → Prop
  | .anonId,.text id => ';' ∉ id
  | _,.text id => ';' ∉ id ∧ ¬ opening <+: id ∧ js.parseJson id = none
  | _,.object traits => js.stringify traits ≠ "\x7b\x7d".toList
  | _,.other _ => False

structure AllReadable (js : Engine O) (held : Key → Option (Value O)) : Prop where
  readable : ∀ key val, held key = some val → Readable js key val
  own : held .userId = none → ∀ traits, held .userTraits = some (.object traits) → js.legacyId traits = none

section Reading

variable {js : Engine O} (hl : Lawful js)

theorem upToSemicolon_start (text : Text) : upToSemicolon text <+: text := List.takeWhile_prefix _

theorem upToSemicolon_eq {text : Text} : upToSemicolon text = text ↔ ';' ∉ text := by
  unfold upToSemicolon
  rw [List.takeWhile_eq_self_iff]
  exact ⟨fun h hs => by simpa using h ';' hs,fun h c hc => decide_eq_true fun hs => h (hs ▸ hc)⟩

theorem parse_plain {input : Text} (h : ¬ opening <+: input) :
    js.parse (some input) = .ok (js.parsed input) := by
  unfold Engine.parse
  dsimp only
  rw [if_neg (by rwa [List.isPrefixOf_iff_prefix])]

theorem parse_encoded {input value : Text} (h : opening <+: input)
    (hd : js.decodeURIComponent input = some value) :
    js.parse (some input) = .ok (js.parsed value) := by
  unfold Engine.parse
  dsimp only
  rw [if_pos (List.isPrefixOf_iff_prefix.mpr h),hd]

include hl

theorem parsed_text {value id : Text} (h : js.parsed value = some (.text id)) :
    id.length < value.length ∨ (id = value ∧ js.parseJson value = none) := by
  unfold Engine.parsed at h
  split at h
  · next parsed hp =>
    split at h
    · cases h
    · split at h
      · cases h
      · cases h
        exact .inl (hl.parse_text hp)
  · next parsed hno hp =>
    cases h
    exact .inl (hl.parse_text hp)
  · next hp =>
    split at h
    · cases h
    · cases h
      exact .inr ⟨rfl,hp⟩

theorem parse_text_iff {id : Text} (hne : id ≠ []) :
    js.parse (some (upToSemicolon id)) = .ok (some (.text id)) ↔
      ';' ∉ id ∧ ¬ opening <+: id ∧ js.parseJson id = none := by
  constructor
  · intro h
    have hlength := (upToSemicolon_start id).length_le
    by_cases ho : opening <+: upToSemicolon id
    · exfalso
      cases hd : js.decodeURIComponent (upToSemicolon id) with
      | none =>
        unfold Engine.parse at h
        dsimp only at h
        rw [if_pos (List.isPrefixOf_iff_prefix.mpr ho),hd] at h
        cases h
      | some value =>
        rw [parse_encoded ho hd,Except.ok.injEq] at h
        obtain ⟨⟨rest,hbrace⟩,hshort⟩ := hl.decode_start ho hd
        rcases parsed_text hl h with hlt | ⟨rfl,-⟩
        · omega
        · obtain ⟨more,hpercent⟩ := ho.trans (upToSemicolon_start _)
          have hhead : '%' = '\x7b' := (List.cons.inj (hpercent.trans hbrace.symm)).1
          exact absurd hhead (by decide)
    · rw [parse_plain ho,Except.ok.injEq] at h
      rcases parsed_text hl h with hlt | ⟨heq,hnone⟩
      · omega
      · rw [← heq] at ho hnone
        exact ⟨upToSemicolon_eq.mp heq.symm,ho,hnone⟩
  · rintro ⟨hclean,ho,hnone⟩
    rw [upToSemicolon_eq.mpr hclean,parse_plain ho]
    unfold Engine.parsed
    rw [hnone]
    exact congrArg Except.ok (if_neg hne)

theorem parse_object_iff (traits : O) :
    js.parse (some (upToSemicolon (js.strVal (.object traits)))) = .ok (some (.object traits)) ↔
      js.stringify traits ≠ "\x7b\x7d".toList := by
  have hstored : upToSemicolon (js.strVal (.object traits)) = js.encodeURIComponent (js.stringify traits) :=
    upToSemicolon_eq.mpr (hl.encode_clean _)
  rw [hstored]
  constructor
  · intro h hempty
    have ho : ¬ opening <+: js.encodeURIComponent (js.stringify traits) := by
      rw [hl.encode_start,hempty]
      decide
    have hnone := hl.parse_percent (hl.encode_percent traits)
    rw [parse_plain ho,Except.ok.injEq] at h
    unfold Engine.parsed at h
    rw [hnone] at h
    dsimp only at h
    split at h <;> cases h
  · intro hne
    have hstart := (hl.stringify_start traits).resolve_right hne
    rw [parse_encoded ((hl.encode_start _).mpr hstart) (hl.decode_encode _)]
    unfold Engine.parsed
    rw [hl.parse_stringify]

end Reading

structure Tracks (js : Engine O) (config : Config) (p : Page O) (held : Key → Option (Value O)) : Prop where
  clean : Clean p.jar
  jar : ∀ key, Entries.find (config.key2cookie key) p.jar =
    (held key).map (fun val => upToSemicolon (js.strVal val))
  cache : ∀ key, p.storageCache key = none ∨ p.storageCache key = held key
  suits : ∀ key val, held key = some val → Suits key val

def Call.Suitable : Call O → Prop
  | .setItem key val => Suits key val
  | _ => True

section Running

variable {js : Engine O} {config : Config} {p : Page O} {held : Key → Option (Value O)} (hn : Named config)

include hn

theorem find_put_key (key other : Key) (val : Text) (jar : Jar) :
    Entries.find (config.key2cookie other) (Entries.put (config.key2cookie key) val jar) =
      if other = key then some val else Entries.find (config.key2cookie other) jar := by
  rw [Entries.find_put]
  exact if_congr (hn.injective.eq_iff.trans eq_comm) rfl rfl

theorem find_drop_key (key other : Key) (jar : Jar) :
    Entries.find (config.key2cookie other) (Entries.drop (config.key2cookie key) jar) =
      if other = key then none else Entries.find (config.key2cookie other) jar := by
  rw [Entries.find_drop]
  exact if_congr (hn.injective.eq_iff.trans eq_comm) rfl rfl

theorem find_reset (keys : List Key) (other : Key) (jar : Jar) :
    Entries.find (config.key2cookie other)
    (keys.foldl (fun jar key => removeCookie jar (config.key2cookie key)) jar) =
      if other ∈ keys then none else Entries.find (config.key2cookie other) jar := by
  induction keys generalizing jar with
  | nil => rfl
  | cons key keys ih =>
    rw [List.foldl_cons,ih]
    unfold removeCookie
    rw [find_drop_key hn]
    by_cases hk : other = key
    · simp [hk]
    · simp [hk]

omit hn in
theorem reset_clean (keys : List Key) {jar : Jar} (h : Clean jar) :
    Clean (keys.foldl (fun jar key => removeCookie jar (config.key2cookie key)) jar) := by
  induction keys generalizing jar with
  | nil => exact h
  | cons key keys ih => exact ih (h.removeCookie _)

theorem Tracks.call (ht : Tracks js config p held) (hd : config.idsDisabled = false) {c : Call O}
    (hc : c.Suitable) :
    Tracks js config (p.call js config c) (c.record held) := by
  cases c with
  | setItem key val =>
    unfold Page.call Page.setItem Call.record
    dsimp only
    rw [if_neg (by rw [hd]; exact Bool.false_ne_true)]
    refine ⟨ht.clean.setCookie (hn.clean key) _,fun other => ?_,fun other => ?_,fun other v hv => ?_⟩
    · rw [setCookie,find_put_key hn,ht.jar]
      by_cases ho : other = key
      · simp [ho]
      · simp [ho]
    · by_cases ho : other = key
      · simp [ho]
      · simpa [ho] using ht.cache other
    · by_cases ho : other = key
      · subst ho
        rw [Function.update_self,Option.some.injEq] at hv
        exact hv ▸ hc
      · rw [Function.update_of_ne ho] at hv
        exact ht.suits other v hv
  | removeItem key =>
    refine ⟨ht.clean.removeCookie _,fun other => ?_,fun other => ?_,fun other v hv => ?_⟩
    · show Entries.find _ (Entries.drop _ _) = (Function.update held key none other).map _
      rw [find_drop_key hn,ht.jar]
      by_cases ho : other = key
      · simp [ho]
      · simp [ho]
    · show Function.update p.storageCache key none other = none ∨
        Function.update p.storageCache key none other = Function.update held key none other
      by_cases ho : other = key
      · simp [ho]
      · simpa [ho] using ht.cache other
    · change Function.update held key none other = some v at hv
      by_cases ho : other = key
      · simp [ho] at hv
      · rw [Function.update_of_ne ho] at hv
        exact ht.suits other v hv
  | reset =>
    refine ⟨reset_clean _ ht.clean,fun other => ?_,fun _ => .inl rfl,nofun⟩
    exact (find_reset hn Key.all other p.jar).trans (if_pos (by cases other <;> decide))
  | reload => exact ⟨ht.clean,ht.jar,fun _ => .inl rfl,ht.suits⟩

theorem Tracks.run (ht : Tracks js config p held) (hd : config.idsDisabled = false) {calls : List (Call O)}
    (hc : ∀ c ∈ calls, c.Suitable) :
    Tracks js config (p.run js config calls) (calls.foldl Call.record held) := by
  induction calls generalizing p held with
  | nil => exact ht
  | cons c calls ih =>
    exact ih (ht.call hn hd (hc c List.mem_cons_self)) fun d hd' => hc d (List.mem_cons_of_mem _ hd')

end Running

section Reads

variable {js : Engine O} {config : Config} {p : Page O} {held : Key → Option (Value O)}

theorem Tracks.read (ht : Tracks js config p held) (hn : Named config) (key : Key) :
    getCookie (cookieText p.jar) (config.key2cookie key) =
      (held key).map (fun val => upToSemicolon (js.strVal val)) :=
  (getCookie_eq ht.clean (hn.clean key)).trans (ht.jar key)

variable {key : Key} (ht : Tracks js config p held)

include ht

theorem Tracks.getItem_iff (hd : config.idsDisabled = false) (key : Key) :
    (p.getItem js config key = .ok (held key) ∧ p.reload.getItem js config key = .ok (held key)) ↔
      cookieItem js config p.jar key = .ok (held key) := by
  have hdisabled : ¬ config.idsDisabled = true := by rw [hd]; exact Bool.false_ne_true
  have hreload : p.reload.getItem js config key = cookieItem js config p.jar key := by
    unfold Page.getItem
    rw [if_neg hdisabled]
    rfl
  rw [hreload]
  refine ⟨fun h => h.2,fun h => ⟨?_,h⟩⟩
  unfold Page.getItem
  rw [if_neg hdisabled]
  rcases ht.cache key with hc | hc
  · rw [hc]
    exact h
  · rw [hc]
    split
    · rfl
    · exact h

variable (hn : Named config)

include hn

theorem Tracks.held_iff (hl : Lawful js) {val : Value O}
    (hv : held key = some val) : cookieItem js config p.jar key = .ok (some val) ↔ Readable js key val := by
  have hsuits := ht.suits key val hv
  unfold cookieItem
  dsimp only
  rw [ht.read hn key,hv]
  cases key with
  | anonId =>
    obtain ⟨id,rfl,-⟩ := hsuits
    show Except.ok (some (Value.text (upToSemicolon id))) = _ ↔ ';' ∉ id
    rw [← upToSemicolon_eq,Except.ok.injEq,Option.some.injEq,Value.text.injEq]
  | userId =>
    obtain ⟨id,rfl,hne⟩ := hsuits
    exact parse_text_iff hl hne
  | groupId =>
    obtain ⟨id,rfl,hne⟩ := hsuits
    exact parse_text_iff hl hne
  | userTraits =>
    obtain ⟨traits,rfl⟩ := hsuits
    exact parse_object_iff hl traits
  | groupTraits =>
    obtain ⟨traits,rfl⟩ := hsuits
    exact parse_object_iff hl traits

theorem Tracks.absent (hv : held key = none)
    (hk : key ≠ .userId) : cookieItem js config p.jar key = .ok none := by
  unfold cookieItem
  dsimp only
  rw [ht.read hn key,hv]
  cases key with
  | userId => exact absurd rfl hk
  | _ => rfl

theorem Tracks.legacy_absent (hv : held .userId = none)
    (ho : held .userTraits = none) : cookieItem js config p.jar .userId = .ok none := by
  unfold cookieItem
  dsimp only
  rw [ht.read hn,hv,ht.read hn,ho]
  rfl

theorem Tracks.legacy (hl : Lawful js) {traits : O}
    (hv : held .userId = none) (ho : held .userTraits = some (.object traits))
    (hr : Readable js .userTraits (.object traits)) :
    cookieItem js config p.jar .userId = .ok (js.legacyId traits) := by
  have hparse := (parse_object_iff hl traits).mpr hr
  unfold cookieItem
  dsimp only
  rw [ht.read hn,hv,ht.read hn,ho]
  show (do
    let traits ← js.parse (some (upToSemicolon (js.strVal (.object traits))))
    Except.ok (match traits with
      | some (.object traits) => js.legacyId traits
      | _ => none)) = _
  rw [hparse]
  rfl

theorem Tracks.all_iff (hl : Lawful js) :
    (∀ key, cookieItem js config p.jar key = .ok (held key)) ↔ AllReadable js held := by
  constructor
  · intro h
    have hreadable : ∀ key val, held key = some val → Readable js key val := by
      intro key val hv
      have hread := h key
      rw [hv] at hread
      exact (ht.held_iff hn hl hv).mp hread
    refine ⟨hreadable,fun hv traits ho => ?_⟩
    have hread := h .userId
    rw [ht.legacy hn hl hv ho (hreadable _ _ ho),hv,Except.ok.injEq] at hread
    exact hread
  · intro h key
    cases hv : held key with
    | some val => exact (ht.held_iff hn hl hv).mpr (h.readable key val hv)
    | none =>
      by_cases hk : key = .userId
      · subst hk
        cases ho : held .userTraits with
        | none => exact ht.legacy_absent hn hv ho
        | some val =>
          obtain ⟨traits,rfl⟩ := ht.suits _ _ ho
          rw [ht.legacy hn hl hv ho (h.readable _ _ ho),h.own hv traits ho]
      · exact ht.absent hn hv hk

end Reads

theorem storage_round_trip_iff {js : Engine O} (hl : Lawful js) {config : Config} (hn : Named config)
    {others : Jar} (hj : Clean others) (ho : ∀ key, config.key2cookie key ∉ others.map Prod.fst)
    (calls : List (Call O)) (hc : ∀ c ∈ calls, c.Suitable) :
    (∀ key, (Page.run js config ⟨fun _ => none,others⟩ calls).getItem js config key =
        .ok (recorded calls key) ∧
      (Page.run js config ⟨fun _ => none,others⟩ calls).reload.getItem js config key =
        .ok (recorded calls key)) ↔
      if config.idsDisabled then ∀ key, recorded calls key = none else AllReadable js (recorded calls) := by
  cases hd : config.idsDisabled with
  | true =>
    rw [if_pos rfl]
    refine forall_congr' fun key => ?_
    have hread : ∀ p : Page O, p.getItem js config key = .ok none := fun p => if_pos hd
    rw [hread,hread,and_self,Except.ok.injEq,eq_comm]
  | false =>
    rw [if_neg Bool.false_ne_true]
    have hstart : Tracks js config ⟨fun _ => none,others⟩ (fun _ => none) :=
      ⟨hj,fun key => Entries.find_eq_none.mpr (ho key),fun _ => .inl rfl,nofun⟩
    have ht := hstart.run hn hd hc
    exact (forall_congr' fun key => ht.getItem_iff hd key).trans (ht.all_iff hn hl)

def sampleObject : Text := "\x7b\"id\":\"u\"\x7d".toList

def sampleEncoded : Text := "%7B%22id%22%3A%22u%22%7D".toList

def sampleEngine : Engine Bool where
  stringify o := if o then sampleObject else "\x7b\x7d".toList
  parseJson text := if text = sampleObject then some (.object true)
    else if text = "\x7b\x7d".toList then some (.object false)
    else if text ≠ [] ∧ text.all Char.isDigit then some (.other text)
    else none
  encodeURIComponent text := if text = sampleObject then sampleEncoded else "%7B%7D".toList
  decodeURIComponent text := if text = sampleEncoded then some sampleObject
    else if text = "%7B%7D".toList then some "\x7b\x7d".toList else none
  field o name := if o = true ∧ name = "id" then some (.text "u".toList) else none
  truthyLiteral literal := literal ≠ "0".toList

theorem sampleEngine_lawful : Lawful sampleEngine where
  parse_stringify := by decide
  stringify_start := by decide
  decode_encode := by decide
  encode_clean := by decide
  encode_start := by decide
  encode_percent := by decide
  decode_start := by
    intro text value ho hd
    simp only [sampleEngine] at hd
    split at hd
    · next heq =>
      cases hd
      rw [heq]
      decide
    · split at hd
      · next heq =>
        rw [heq] at ho
        exact absurd ho (by decide)
      · cases hd
  parse_text := by
    intro text value h
    simp only [sampleEngine] at h
    split at h
    · cases h
    · split at h
      · cases h
      · split at h <;> cases h
  parse_percent := by
    rintro _ ⟨rest,rfl⟩
    have hobject : "%".toList ++ rest ≠ sampleObject :=
      fun h => absurd (List.cons.inj h).1 (by decide)
    have hempty : "%".toList ++ rest ≠ "\x7b\x7d".toList :=
      fun h => absurd (List.cons.inj h).1 (by decide)
    simp only [sampleEngine]
    rw [if_neg hobject,if_neg hempty,if_neg]
    rintro ⟨-,hall⟩
    exact absurd (List.all_eq_true.mp hall '%' (List.mem_cons_self ..)) (by decide)

def sampleConfig : Config := ⟨defaultCookie2Key,false⟩

theorem sampleConfig_named : Named sampleConfig where
  clean key := by cases key <;> exact ⟨by decide,by decide⟩
  injective := by
    intro key other h
    cases key <;> cases other <;> first | rfl | exact absurd h (by decide)

def sampleCalls : List (Call Bool) :=
  [.setItem .anonId (.text "42".toList),.reset,.setItem .anonId (.text "42".toList),
    .setItem .userTraits (.object true),.setItem .userId (.text "u-1".toList),.reload]

theorem storage_round_trip_identified :
    (Page.run sampleEngine sampleConfig ⟨fun _ => none,[]⟩ sampleCalls).getItem sampleEngine sampleConfig
      .userId = .ok (some (.text "u-1".toList)) ∧
    (Page.run sampleEngine sampleConfig ⟨fun _ => none,[]⟩ sampleCalls).reload.getItem sampleEngine
      sampleConfig .userId = .ok (some (.text "u-1".toList)) := by
  have hempty : Clean [] := ⟨List.nodup_nil,nofun,nofun⟩
  have hsuits : ∀ c ∈ sampleCalls, c.Suitable := by
    simp only [sampleCalls,List.forall_mem_cons,List.not_mem_nil,false_implies,implies_true]
    exact ⟨⟨_,rfl,by decide⟩,trivial,⟨_,rfl,by decide⟩,⟨_,rfl⟩,⟨_,rfl,by decide⟩,trivial,trivial⟩
  refine (storage_round_trip_iff sampleEngine_lawful sampleConfig_named hempty (fun _ => List.not_mem_nil)
    sampleCalls hsuits).mpr ⟨fun key val hv => ?_,nofun⟩ .userId
  cases key <;> cases hv <;> simp only [Readable] <;> decide

theorem stored_items_misread :
    (Page.run sampleEngine sampleConfig ⟨fun _ => none,[]⟩
      [.setItem .userId (.text "123".toList)]).reload.getItem sampleEngine sampleConfig .userId =
        .ok (some (.other "123".toList)) ∧
    (Page.run sampleEngine sampleConfig ⟨fun _ => none,[]⟩
      [.setItem .anonId (.text "a;b".toList)]).reload.getItem sampleEngine sampleConfig .anonId =
        .ok (some (.text "a".toList)) ∧
    (Page.run sampleEngine sampleConfig ⟨fun _ => none,[]⟩
      [.setItem .groupTraits (.object false)]).reload.getItem sampleEngine sampleConfig .groupTraits =
        .ok (some (.text "%7B%7D".toList)) ∧
    (Page.run sampleEngine sampleConfig ⟨fun _ => none,[]⟩ [.setItem .userTraits (.object true)]).getItem
      sampleEngine sampleConfig .userId = .ok (some (.text "u".toList)) :=
  ⟨rfl,rfl,rfl,rfl⟩

end Jitsu.Browser
