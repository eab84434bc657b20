import Jitsu.Destination.Rows

namespace Jitsu.Destination

open Lib Ingest

theorem lowerRune_not_upper (c : Char) : ¬ (lowerRune c).isUpper := by
  unfold lowerRune
  split
  · decide
  · split
    · decide
    · simp

theorem lowerRune_ne_space {c : Char} (h : c ≠ ' ') : lowerRune c ≠ ' ' := by
  unfold lowerRune
  split
  · decide
  · split
    · decide
    · intro hc
      have halpha : c.isAlpha = false := by rw [← Char.isAlpha_toLower_eq_isAlpha,hc]; rfl
      have hupper : ¬ c.isUpper := fun hu => by simp [Char.isAlpha,hu] at halpha
      exact h (Char.toLower_eq_of_not_isUpper hupper ▸ hc)

theorem idToSnakeCaseFast_toLower {name : String} (h : ' ' ∉ name.toList) :
    idToSnakeCaseFast (toLower name) = toLower name := by
  have hplain : ∀ c ∈ (toLower name).toList, ¬ c.isUpper ∧ c ≠ ' ' := by
    intro c hc
    rw [toLower,String.toList_ofList] at hc
    obtain ⟨d,hd,rfl⟩ := List.mem_map.mp hc
    exact ⟨lowerRune_not_upper d,lowerRune_ne_space fun hs => h (hs ▸ hd)⟩
  rw [idToSnakeCaseFast_eq,snakeFrom_plain hplain,String.ofList_toList]

variable {config : BulkerDestinationConfig} {ok : SQLColumn → Prop}

def PlainHeaders (config : BulkerDestinationConfig) (headers : Headers) : Prop :=
  ∀ e ∈ headers, ¬ hasPrefix (config.rename e.1) sqlTypePrefix

theorem PlainHeaders.put {headers : Headers} {name value : String} (h : PlainHeaders config headers)
    (hn : ¬ hasPrefix (config.rename name) sqlTypePrefix) :
    PlainHeaders config (Entries.put name value headers) := by
  intro e he
  rcases Entries.mem_put he with rfl | he
  · exact hn
  · exact h e he

theorem PlainHeaders.requestHeader {headers : Headers} {entry : String × List String}
    (h : PlainHeaders config headers) (hspace : ' ' ∉ entry.1.toList) :
    PlainHeaders config (requestHeader headers entry) := by
  unfold Ingest.requestHeader
  dsimp only
  split
  · exact h
  · next hkept =>
    have hplain : ¬ hasPrefix (toLower entry.1) sqlTypePrefix := fun hp => hkept (.inr (.inr hp))
    have hname := renames_plain (idToSnakeCaseFast_toLower hspace ▸ hplain) config.keepsNames
    split
    · exact h.put hname
    · split
      · exact h.put hname
      · exact h.put hname

theorem PlainHeaders.overlayHeader {headers : Headers} (h : PlainHeaders config headers)
    (entry : String × Json) : PlainHeaders config (overlayHeader headers entry) := by
  have hallowed : ∀ name ∈ contextHeadersAllowlist, ¬ hasPrefix (idToSnakeCaseFast name) sqlTypePrefix := by
    decide +kernel
  unfold Ingest.overlayHeader
  split
  · split
    · next hc => exact h.put (renames_plain (hallowed _ (by simpa using hc)) _)
    · exact h
  · exact h

theorem PlainHeaders.dropRedundant {headers : Headers} (h : PlainHeaders config headers)
    (name value : String) :
    PlainHeaders config (dropRedundant headers name value) := by
  unfold Ingest.dropRedundant
  split
  · exact fun e he => h e (List.mem_of_mem_filter he)
  · exact h

theorem PlainHeaders.foldl {α : Type} {step : Headers → α → Headers} {entries : List α}
    (hstep : ∀ entry ∈ entries, ∀ headers,
    PlainHeaders config headers → PlainHeaders config (step headers entry))
    {headers : Headers} (h : PlainHeaders config headers) : PlainHeaders config (entries.foldl step headers) :=
  List.foldlRecOn entries step h fun headers hh entry he => hstep entry he headers hh

def HeaderTokens (c : Request) : Prop := ∀ e ∈ c.header, ' ' ∉ e.1.toList

theorem buildContextHeaders_plain {c : Request} (hc : HeaderTokens c) (bodyHeaders : Option Json)
    (ctx : Fields) : PlainHeaders config (buildContextHeaders c bodyHeaders ctx) := by
  have hcaptured : PlainHeaders config (c.header.foldl requestHeader []) :=
    PlainHeaders.foldl (fun entry he headers hh => hh.requestHeader (hc entry he)) (by simp [PlainHeaders])
  have hhosted : PlainHeaders config (if c.host ≠ "" then
      Entries.put "host" c.host (c.header.foldl requestHeader []) else c.header.foldl requestHeader []) := by
    split
    · exact hcaptured.put (renames_plain (by decide) _)
    · exact hcaptured
  have hoverlaid : PlainHeaders config (((bodyHeaders.bind Json.fields?).getD []).foldl overlayHeader _) :=
    PlainHeaders.foldl (fun entry _ headers hh => hh.overlayHeader entry) hhosted
  unfold buildContextHeaders
  dsimp only
  split
  · exact ((hoverlaid.dropRedundant _ _).dropRedundant _ _).dropRedundant _ _
  · exact hoverlaid.dropRedundant _ _

theorem checkName_yields {P : Fields → Prop} {fields : Fields} (h : P fields)
    (hset : ∀ text, P (Fields.setIfAbsent fields "event" (.str text))) (fixed defaultEventName : String) :
    Yields P (checkName fixed defaultEventName fields) := by
  unfold checkName
  dsimp only
  generalize (if Fields.getS fields "event" = "" then defaultEventName else Fields.getS fields "event") = name
  split
  · exact .value h
  · split
    · exact .failed
    · split
      · exact .failed
      · split
        · exact .value (hset _)
        · exact .value h

abbrev Honest (config : BulkerDestinationConfig) (ok : SQLColumn → Prop) (fields : Fields) : Prop :=
  (honest config.rename ok).HoldsFields fields

namespace Honest

variable {fields : Fields}

section

variable (h : Honest config ok fields)

include h

theorem set {name : String} {value : Json}
    (hn : ¬ hasPrefix (idToSnakeCaseFast name) sqlTypePrefix) (hv : (honest config.rename ok).Holds value) :
    Honest config ok (Fields.set fields name value) :=
  Rule.HoldsFields.set h (fun _ => agreed.other (renames_plain hn _)) fun _ => hv

theorem setIfAbsent {name value : String}
    (hn : ¬ hasPrefix (idToSnakeCaseFast name) sqlTypePrefix) :
    Honest config ok (Fields.setIfAbsent fields name (.str value)) := by
  unfold Fields.setIfAbsent
  split
  · exact h
  · exact h.set hn trivial

theorem setAll {other : Fields} (ho : Honest config ok other) :
    Honest config ok (Fields.setAll fields other) := by
  refine List.foldlRecOn other _ h fun m hm e he => ?_
  obtain ⟨hf,hv⟩ := Rule.holdsFields_iff.mp ho e he
  exact Rule.HoldsFields.set hm hf hv

theorem headers {headers : Headers} (hh : PlainHeaders config headers) :
    Honest config ok (Fields.set fields "headers" (.strings headers)) :=
  h.set (by decide) hh

theorem eventContext {shared : Option Fields}
    (hs : ∀ context, shared = some context → Honest config ok context) :
    Honest config ok (eventContext fields shared) := by
  have hown : Honest config ok (((Fields.get fields "context").bind Json.fields?).getD []) := by
    match hc : Fields.get fields "context" with
    | some (.obj context) =>
      exact (Rule.HoldsFields.get h hc).2 (by decide : ¬ hasPrefix "context" sqlTypePrefix)
    | none => trivial
    | some .null => trivial
    | some (.bool _) => trivial
    | some (.num _) => trivial
    | some (.str _) => trivial
    | some (.arr _) => trivial
    | some (.strings _) => trivial
  unfold Ingest.eventContext
  dsimp only
  split
  · next context =>
    split
    · exact hown
    · exact (hs context rfl).setAll hown
  · exact hown

end

variable {c : Request}

theorem browserContext (hc : HeaderTokens c) (captureHeaders : Bool) (ip : String)
    (h : Honest config ok fields) : Honest config ok (browserContext c captureHeaders ip fields) := by
  have hlocated : Honest config ok (if ip ≠ "" then Fields.set fields "ip" (.str ip) else fields) := by
    split
    · exact h.set (by decide) trivial
    · exact h
  unfold Ingest.browserContext
  dsimp only
  split
  · exact ((hlocated.setIfAbsent (by decide)).setIfAbsent (by decide)).headers
      (buildContextHeaders_plain hc _ _)
  · exact Rule.HoldsFields.delete ((hlocated.setIfAbsent (by decide)).setIfAbsent (by decide)) _

theorem s2sContext (hc : HeaderTokens c) (captureHeaders : Bool) (h : Honest config ok fields) :
    Honest config ok (s2sContext c captureHeaders fields) := by
  unfold Ingest.s2sContext
  split
  · exact h.headers (buildContextHeaders_plain hc _ _)
  · exact h

end Honest

def KeepsOnly (ok : SQLColumn → Prop) (keepHint : Json → Bool) : Prop :=
  ∀ value, keepHint value = true →
    (∃ text, value = .str text) ∧ ∀ hint, parseSQLTypeHint value = some hint → ok hint

mutual

theorem filterValue_agreed {keepHint : Json → Bool} (hk : KeepsOnly ok keepHint) (v : Json)
    (h : (honest config.rename ok).Holds v) : (agreed config.rename ok).Holds (filterValue keepHint v) := by
  match v,h with
  | .arr items,h => exact filterItems_agreed hk items h
  | .obj fields,h => exact filterEvent_agreed hk fields h
  | .strings _,h => exact h
  | .null,_ => trivial
  | .bool _,_ => trivial
  | .num _,_ => trivial
  | .str _,_ => trivial

theorem filterItems_agreed {keepHint : Json → Bool} (hk : KeepsOnly ok keepHint) (items : List Json)
    (h : (honest config.rename ok).HoldsItems items) :
    (agreed config.rename ok).HoldsItems (filterItems keepHint items) := by
  match items,h with
  | [],_ => trivial
  | item :: rest,h => exact ⟨filterValue_agreed hk item h.1,filterItems_agreed hk rest h.2⟩

theorem filterEvent_agreed {keepHint : Json → Bool} (hk : KeepsOnly ok keepHint)
    (fields : List (String × Json)) (h : Honest config ok fields) :
    (agreed config.rename ok).HoldsFields (filterEvent keepHint fields) := by
  match fields,h with
  | [],_ => trivial
  | (key,value) :: rest,h =>
    have hrest := filterEvent_agreed hk rest h.2.2
    unfold filterEvent
    split
    · split
      · next hkept =>
        obtain ⟨⟨text,rfl⟩,hok⟩ := hk value hkept
        exact ⟨fun _ => hok,fun _ => trivial,hrest⟩
      · exact hrest
    · next hp =>
      refine ⟨fun hr hint hh => h.1 hp hr hint ?_,fun _ => filterValue_agreed hk value (h.2.1 hp),hrest⟩
      exact parse_filterValue keepHint value ▸ hh

end

def AllowListed (hint : SQLColumn) : Prop :=
  sqlTypeHintAllowlist.contains (toLower hint.type) = true ∧ hint.ddlType = ""

def Accepted (ingestType : IngestType) (hint : SQLColumn) : Prop := ingestType ≠ .browser ∧ AllowListed hint

theorem keepsOnly_none : KeepsOnly ok (fun _ => false) := nofun

theorem keepsOnly_isValidSqlTypeHint {ingestType : IngestType} (h : ingestType ≠ .browser) :
    KeepsOnly (Accepted ingestType) isValidSqlTypeHint := by
  intro value hv
  cases value with
  | str text =>
    refine ⟨⟨text,rfl⟩,fun hint hh => ⟨h,?_⟩⟩
    simp only [parseSQLTypeHint] at hh
    split at hh
    · cases hh
    · cases hh
      exact ⟨hv,rfl⟩
  | _ => cases hv

theorem FilterEvent_agreed {fields : Fields} (h : Honest config ok fields) :
    (agreed config.rename ok).HoldsFields (FilterEvent fields) := by
  refine filterEvent_agreed keepsOnly_none _ ?_
  exact List.foldlRecOn internalKeys _ h fun m hm key _ => Rule.HoldsFields.delete hm key

theorem agreed.stamp {rename : String → String} {fields : Fields} {name value : String}
    (h : (agreed rename ok).HoldsFields fields) (hn : ¬ hasPrefix (rename name) sqlTypePrefix) :
    (agreed rename ok).HoldsFields (Fields.set fields name (.str value)) :=
  h.set (agreed.other hn) fun _ => trivial

theorem agreed.stampIfAbsent {rename : String → String} {fields : Fields} {name value : String}
    (h : (agreed rename ok).HoldsFields fields) (hn : ¬ hasPrefix (rename name) sqlTypePrefix) :
    (agreed rename ok).HoldsFields (Fields.setIfAbsent fields name (.str value)) := by
  unfold Fields.setIfAbsent
  split
  · exact h
  · exact agreed.stamp h hn

theorem patchReceived_agreed {c : Request} (hc : HeaderTokens c) {p : Patch} {body : Fields}
    (h : Honest config (Accepted p.ingestType) body)
    (hs : ∀ context, p.analyticContext = some context → Honest config (Accepted p.ingestType) context)
    (receivedAt : Option String) :
    Yields (agreed config.rename (Accepted p.ingestType)).HoldsFields (patchReceived receivedAt c p body) := by
  have htype : Yields (fun _ => True) (fixedType p.tp p.defaultEventName body) := fun _ _ => trivial
  have hplain : ∀ name ∈ ["receivedAt","type","timestamp","messageId"],
      ¬ hasPrefix (config.rename name) sqlTypePrefix := fun name hname =>
    renames_plain ((by decide +kernel : ∀ name ∈ ["receivedAt","type","timestamp","messageId"],
      ¬ hasPrefix (idToSnakeCaseFast name) sqlTypePrefix) name hname) _
  have hpatched : Yields (agreed config.rename (Accepted p.ingestType)).HoldsFields (patchEvent c p body) := by
    refine htype.bind fun fixed _ => (checkName_yields (P := Honest config (Accepted p.ingestType)) h
      (fun _ => h.setIfAbsent (by decide)) fixed _).bind fun named hnamed => ?_
    have haddressed : Honest config (Accepted p.ingestType)
        (if requestIp c ≠ "" then Fields.set named "requestIp" (.str (requestIp c)) else named) := by
      split
      · exact hnamed.set (by decide) trivial
      · exact hnamed
    have hctx := haddressed.eventContext hs
    refine .value (agreed.stampIfAbsent (agreed.stampIfAbsent (agreed.stamp (agreed.stamp ?_
      (hplain _ (by simp))) (hplain _ (by simp))) (hplain _ (by simp))) (hplain _ (by simp)))
    split
    · exact FilterEvent_agreed (haddressed.set (by decide) (hctx.browserContext hc _ _))
    · next hb =>
      exact filterEvent_agreed (keepsOnly_isValidSqlTypeHint hb) _
        (haddressed.set (by decide) (hctx.s2sContext hc _))
  refine hpatched.bind fun patched hp => .value ?_
  cases receivedAt with
  | none => exact hp
  | some t => exact agreed.stamp hp (hplain _ (by simp))

end Jitsu.Destination
