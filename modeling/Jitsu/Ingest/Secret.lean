import Jitsu.Ingest.Marshal

namespace Jitsu.Ingest

open Lib

def KeyAlike (key key' : String) : Prop :=
  key = key' ∨ ∃ keyId secret secret', ':' ∉ keyId.toList ∧ key = keyId ++ ":" ++ secret ∧
    key' = keyId ++ ":" ++ secret'

def AuthorizationAlike (decodeBase64 : String → Option String) (value value' : String) : Prop :=
  value ≠ "" ∧ value' ≠ "" ∧ ∃ key key', decodedKey decodeBase64 value = .ok key ∧
    decodedKey decodeBase64 value' = .ok key' ∧ KeyAlike key key'

inductive HeaderAlike (decodeBase64 : String → Option String) :
    String × List String → String × List String → Prop where
  | same (h : String × List String) : HeaderAlike decodeBase64 h h
  | authorization {value value' : String} (rest : List String)
      (alike : AuthorizationAlike decodeBase64 value value') :
      HeaderAlike decodeBase64 ("Authorization",value :: rest) ("Authorization",value' :: rest)
  | writeKey {key key' : String} (rest : List String) (alike : KeyAlike key key') :
      HeaderAlike decodeBase64 ("X-Write-Key",key :: rest) ("X-Write-Key",key' :: rest)

structure SameButSecret (decodeBase64 : String → Option String) (c c' : Request) (bodyKey bodyKey' : String) :
    Prop where
  header : List.Forall₂ (HeaderAlike decodeBase64) c.header c'.header
  host : c.host = c'.host
  urlScheme : c.urlScheme = c'.urlScheme
  urlHost : c.urlHost = c'.urlHost
  clientIp : c.clientIp = c'.clientIp
  query : KeyAlike c.queryWriteKey c'.queryWriteKey
  body : KeyAlike bodyKey bodyKey'

theorem split_key {keyId : String} (h : ':' ∉ keyId.toList) (secret : String) :
    split (keyId ++ ":" ++ secret) ':' = keyId :: split secret ':' := by
  have hfree : ∀ x ∈ keyId.toList, (x == ':') = false := by
    intro x hx
    exact beq_eq_false_iff_ne.mpr (fun hcolon => h (hcolon ▸ hx))
  have hlist : (keyId ++ ":" ++ secret).toList = keyId.toList ++ ':' :: secret.toList := by simp
  unfold split
  rw [hlist,List.splitOn,List.splitOnP_append_cons_of_forall_mem hfree ':' (by simp)]
  simp [List.splitOn]

theorem split_ne_nil (text : String) (sep : Char) : split text sep ≠ [] := by
  simp [split]

theorem maskWriteKey_secret {keyId : String} (h : ':' ∉ keyId.toList) (secret : String) :
    maskWriteKey (keyId ++ ":" ++ secret) = keyId ++ ":***" := by
  obtain ⟨first,rest,hsplit⟩ := List.exists_cons_of_ne_nil (split_ne_nil secret ':')
  unfold maskWriteKey
  rw [if_pos (by simp),split_key h,hsplit]

namespace KeyAlike

variable {key key' : String}

theorem mask (h : KeyAlike key key') : maskWriteKey key = maskWriteKey key' := by
  rcases h with rfl | ⟨keyId,secret,secret',hfree,rfl,rfl⟩
  · rfl
  · rw [maskWriteKey_secret hfree,maskWriteKey_secret hfree]

theorem empty_iff (h : KeyAlike key key') : key = "" ↔ key' = "" := by
  rcases h with rfl | ⟨keyId,secret,secret',_,rfl,rfl⟩
  · rfl
  · simp

end KeyAlike

variable {decodeBase64 : String → Option String}

theorem HeaderAlike.cases {e e' : String × List String} (h : HeaderAlike decodeBase64 e e') :
    e.2 = e'.2 ∨
    (e.1 = "Authorization" ∧ ∃ value value' rest, e.2 = value :: rest ∧ e'.2 = value' :: rest ∧
      AuthorizationAlike decodeBase64 value value') ∨
    (e.1 = "X-Write-Key" ∧ ∃ key key' rest, e.2 = key :: rest ∧ e'.2 = key' :: rest ∧ KeyAlike key key') := by
  cases h with
  | same => exact .inl rfl
  | authorization rest halike => exact .inr (.inl ⟨rfl,_,_,rest,rfl,rfl,halike⟩)
  | writeKey rest halike => exact .inr (.inr ⟨rfl,_,_,rest,rfl,rfl,halike⟩)

theorem find_alike {hs hs' : List (String × List String)} (h : List.Forall₂ (HeaderAlike decodeBase64) hs hs')
    (name : String) :
    Entries.find name hs = none ∧ Entries.find name hs' = none ∨
    ∃ v v', Entries.find name hs = some v ∧ Entries.find name hs' = some v' ∧
      HeaderAlike decodeBase64 (name,v) (name,v') := by
  induction h with
  | nil => exact .inl ⟨rfl,rfl⟩
  | @cons e e' rest rest' he _ ih =>
    have hname : e.1 = e'.1 := by cases he <;> rfl
    by_cases hn : e.1 = name
    · refine .inr ⟨e.2,e'.2,by rw [Entries.find,if_pos hn],by rw [Entries.find,if_pos (hname ▸ hn)],?_⟩
      have hpair : (name,e.2) = e := by rw [← hn]
      have hpair' : (name,e'.2) = e' := by rw [← hn,hname]
      rw [hpair,hpair']
      exact he
    · rw [Entries.find,if_neg hn,Entries.find,if_neg (hname ▸ hn)]
      exact ih

namespace SameButSecret

variable {c c' : Request} {bodyKey bodyKey' : String}

section

variable (h : SameButSecret decodeBase64 c c' bodyKey bodyKey')

include h

theorem getHeader_cases (name : String) :
    c.getHeader name = c'.getHeader name ∨
    name = "Authorization" ∧ AuthorizationAlike decodeBase64 (c.getHeader name) (c'.getHeader name) ∨
    name = "X-Write-Key" ∧ KeyAlike (c.getHeader name) (c'.getHeader name) := by
  unfold Request.getHeader Request.values
  rcases find_alike h.header name with ⟨hn,hn'⟩ | ⟨v,v',hv,hv',halike⟩
  · rw [hn,hn']
    exact .inl rfl
  · rw [hv,hv',Option.getD_some,Option.getD_some]
    rcases halike.cases with hsame | ⟨hname,value,value',rest,hvalue,hvalue',ha⟩ | ⟨hname,key,key',rest,hkey,
      hkey',hk⟩
    · exact .inl (congrArg (List.headD · "") hsame)
    · dsimp only at hvalue hvalue'
      rw [hvalue,hvalue']
      exact .inr (.inl ⟨hname,ha⟩)
    · dsimp only at hkey hkey'
      rw [hkey,hkey']
      exact .inr (.inr ⟨hname,hk⟩)

theorem getHeader {name : String}
    (ha : name ≠ "Authorization") (hw : name ≠ "X-Write-Key") : c.getHeader name = c'.getHeader name := by
  rcases h.getHeader_cases name with hsame | ⟨hname,_⟩ | ⟨hname,_⟩
  · exact hsame
  · exact absurd hname ha
  · exact absurd hname hw

theorem requestIp : requestIp c = requestIp c' := by
  unfold Ingest.requestIp
  rw [h.getHeader (by decide) (by decide),h.getHeader (by decide) (by decide),h.clientIp,
    h.getHeader (by decide) (by decide)]

end

theorem requestHeader_alike {e e' : String × List String} (he : HeaderAlike decodeBase64 e e')
    (headers : Headers) :
    requestHeader headers e = requestHeader headers e' := by
  cases he with
  | same => rfl
  | authorization rest _ =>
    have hname : toLower "Authorization" = "authorization" := by decide
    have hlisted : "authorization" ∉ contextHeadersAllowlist := by decide
    simp [requestHeader,hname,hlisted]
  | writeKey rest halike =>
    have hname : toLower "X-Write-Key" = "x-write-key" := by decide
    simp [requestHeader,hname,halike.mask]

section

variable (h : SameButSecret decodeBase64 c c' bodyKey bodyKey')

include h

theorem buildContextHeaders (bodyHeaders : Option Json)
    (ctx : Fields) : buildContextHeaders c bodyHeaders ctx = buildContextHeaders c' bodyHeaders ctx := by
  have hfold : ∀ {hs hs' : List (String × List String)} (acc : Headers),
      List.Forall₂ (HeaderAlike decodeBase64) hs hs' →
        hs.foldl requestHeader acc = hs'.foldl requestHeader acc := by
    intro hs hs' acc hf
    induction hf generalizing acc with
    | nil => rfl
    | cons he _ ih => rw [List.foldl_cons,List.foldl_cons,requestHeader_alike he,ih]
  unfold Ingest.buildContextHeaders
  rw [hfold [] h.header,h.host]

theorem patchEvent (p : Patch) (ev : Fields) :
    patchEvent c p ev = patchEvent c' p ev := by
  have hagent : c.getHeader "User-Agent" = c'.getHeader "User-Agent" := h.getHeader (by decide) (by decide)
  have hlocale : c.getHeader "Accept-Language" = c'.getHeader "Accept-Language" :=
    h.getHeader (by decide) (by decide)
  unfold Ingest.patchEvent browserContext s2sContext
  simp only [h.requestIp,h.buildContextHeaders,hagent,hlocale]

theorem writtenKey :
    KeyAlike (c.getHeader "X-Write-Key") (c'.getHeader "X-Write-Key") := by
  rcases h.getHeader_cases "X-Write-Key" with hsame | ⟨hname,_⟩ | ⟨_,hk⟩
  · exact .inl hsame
  · exact absurd hname (by decide)
  · exact hk

theorem writeKeyOf {key key' : String}
    (hk : writeKeyOf decodeBase64 c bodyKey = .ok key) (hk' : writeKeyOf decodeBase64 c' bodyKey' = .ok key') :
    KeyAlike key key' := by
  unfold Ingest.writeKeyOf at hk hk'
  rcases h.getHeader_cases "Authorization" with hsame | ⟨_,hne,hne',k,k',hd,hd',halike⟩ | ⟨hname,_⟩
  · rw [← hsame] at hk'
    split at hk
    · next hauth =>
      rw [if_pos hauth,hk,Except.ok.injEq] at hk'
      exact .inl hk'
    · next hauth =>
      rw [if_neg hauth] at hk'
      by_cases hx : c.getHeader "X-Write-Key" = ""
      · rw [if_neg (not_not.mpr hx)] at hk
        rw [if_neg (not_not.mpr (h.writtenKey.empty_iff.mp hx))] at hk'
        by_cases hq : c.queryWriteKey = ""
        · rw [if_neg (not_not.mpr hq),Except.ok.injEq] at hk
          rw [if_neg (not_not.mpr (h.query.empty_iff.mp hq)),Except.ok.injEq] at hk'
          exact hk ▸ hk' ▸ h.body
        · rw [if_pos hq,Except.ok.injEq] at hk
          rw [if_pos (fun h0 => hq (h.query.empty_iff.mpr h0)),Except.ok.injEq] at hk'
          exact hk ▸ hk' ▸ h.query
      · rw [if_pos hx,Except.ok.injEq] at hk
        rw [if_pos (fun h0 => hx (h.writtenKey.empty_iff.mpr h0)),Except.ok.injEq] at hk'
        exact hk ▸ hk' ▸ h.writtenKey
  · rw [if_pos hne,hd,Except.ok.injEq] at hk
    rw [if_pos hne',hd',Except.ok.injEq] at hk'
    subst hk hk'
    exact halike
  · exact absurd hname (by decide)

theorem located {dataHosts : List String}
    {ingestType : IngestType} {loc loc' : StreamCredentials}
    (hl : getDataLocator decodeBase64 dataHosts c ingestType bodyKey = .ok loc)
    (hl' : getDataLocator decodeBase64 dataHosts c' ingestType bodyKey' = .ok loc') :
    loc.slug = loc'.slug ∧ loc.domain = loc'.domain ∧
    maskWriteKey loc.writeKey = maskWriteKey loc'.writeKey := by
  unfold getDataLocator at hl hl'
  cases hk : Ingest.writeKeyOf decodeBase64 c bodyKey with
  | error err => simp [hk] at hl
  | ok key =>
    cases hk' : Ingest.writeKeyOf decodeBase64 c' bodyKey' with
    | error err => simp [hk'] at hl'
    | ok key' =>
      have hmask := (h.writeKeyOf hk hk').mask
      rw [hk] at hl
      rw [hk',← h.host] at hl'
      dsimp only at hl hl'
      cases hslug : slugOf dataHosts ((split c.host ':').headD "") with
      | none =>
        rw [hslug] at hl hl'
        cases hl
        cases hl'
        exact ⟨rfl,rfl,hmask⟩
      | some slug =>
        rw [hslug] at hl hl'
        cases hl
        cases hl'
        exact ⟨rfl,rfl,hmask⟩

end

theorem join_cons_inj {value value' : String} {rest : List String}
    (h : join (value :: rest) = join (value' :: rest)) : value = value' := by
  cases rest with
  | nil => exact h
  | cons next rest =>
    have htext := congrArg String.toList h
    simp only [join,String.toList_append,List.append_cancel_right_eq] at htext
    exact String.toList_injective htext

theorem httpHeader_authorization (value : String) (rest : List String) :
    httpHeader ("Authorization",value :: rest) = some ("Authorization",join (value :: rest)) := by
  have hinternal : isInternalHeader "Authorization" = false := by decide
  have hname : ¬toLower "Authorization" = "x-write-key" := by decide
  simp [httpHeader,hinternal,hname]

theorem find_httpHeaders {hs : List (String × List String)} {name : String} {v : List String} {sent : String}
    (hfind : Entries.find name hs = some v) (hsent : httpHeader (name,v) = some (name,sent)) :
    Entries.find name (hs.filterMap httpHeader) = some sent := by
  induction hs with
  | nil => cases hfind
  | cons e rest ih =>
    by_cases he : e.1 = name
    · rw [Entries.find,if_pos he,Option.some.injEq] at hfind
      have hpair : e = (name,v) := by rw [← he,← hfind]
      rw [hpair,List.filterMap_cons,hsent]
      simp [Entries.find]
    · rw [Entries.find,if_neg he] at hfind
      rw [List.filterMap_cons]
      split
      · exact ih hfind
      · next f hf =>
        have hkey : f.1 = e.1 := by
          unfold httpHeader at hf
          split at hf
          · cases hf
          · cases hf
            rfl
        rw [Entries.find,if_neg (hkey ▸ he)]
        exact ih hfind

theorem authorization_of_httpHeaders (h : SameButSecret decodeBase64 c c' bodyKey bodyKey')
    (hheaders : Entries.find "Authorization" (httpHeaders c) = Entries.find "Authorization" (httpHeaders c')) :
    c.getHeader "Authorization" = c'.getHeader "Authorization" := by
  unfold Request.getHeader Request.values
  rcases find_alike h.header "Authorization" with ⟨hn,hn'⟩ | ⟨v,v',hv,hv',halike⟩
  · rw [hn,hn']
  · rw [hv,hv',Option.getD_some,Option.getD_some]
    rcases halike.cases with hsame | ⟨_,value,value',rest,hvalue,hvalue',_⟩ | ⟨hname,_⟩
    · exact congrArg (List.headD · "") hsame
    · dsimp only at hvalue hvalue'
      subst hvalue hvalue'
      rw [httpHeaders,httpHeaders,find_httpHeaders hv (httpHeader_authorization value rest),
        find_httpHeaders hv' (httpHeader_authorization value' rest),Option.some.injEq] at hheaders
      exact join_cons_inj hheaders
    · have hne : "Authorization" ≠ "X-Write-Key" := by decide
      exact absurd hname hne

theorem authorization_mem {value : String} {rest : List String}
    (hmem : ("Authorization",value :: rest) ∈ c.header) :
    c.getHeader "Authorization" = value := by
  have hget := (OrderedMap.mk c.header c.unique).get_of_mem hmem
  rw [Request.getHeader,Request.values,show Entries.find "Authorization" c.header = _ from hget]
  rfl

theorem httpHeader_alike {e e' : String × List String} (he : HeaderAlike decodeBase64 e e')
    (hauth : ∀ value value' rest, e = ("Authorization",value :: rest) → e' = ("Authorization",value' :: rest) →
      value = value') : httpHeader e = httpHeader e' := by
  cases he with
  | same => rfl
  | authorization rest _ => rw [hauth _ _ rest rfl rfl]
  | writeKey rest halike =>
    have hname : toLower "X-Write-Key" = "x-write-key" := by decide
    simp [httpHeader,hname,halike.mask]

theorem httpHeaders_of_authorization (h : SameButSecret decodeBase64 c c' bodyKey bodyKey')
    (ha : c.getHeader "Authorization" = c'.getHeader "Authorization") : httpHeaders c = httpHeaders c' := by
  have hall : ∀ {hs hs' : List (String × List String)}, List.Forall₂ (HeaderAlike decodeBase64) hs hs' →
      hs ⊆ c.header → hs' ⊆ c'.header → hs.filterMap httpHeader = hs'.filterMap httpHeader := by
    intro hs hs' hf hsub hsub'
    induction hf with
    | nil => rfl
    | @cons e e' rest rest' he _ ih =>
      rw [List.cons_subset] at hsub hsub'
      have hheader : httpHeader e = httpHeader e' := by
        refine httpHeader_alike he ?_
        rintro value value' rest rfl rfl
        rw [← authorization_mem hsub.1,← authorization_mem hsub'.1,ha]
      rw [List.filterMap_cons,List.filterMap_cons,hheader,ih hsub.2 hsub'.2]
  exact hall h.header (List.Subset.refl _) (List.Subset.refl _)

end SameButSecret

structure Envelope where
  messageId : String
  tp : String
  analyticContext : Option Fields
  defaultEventName : String
  now : String
  receivedAt : Option String
  event : Fields

def Envelope.patch (e : Envelope) (c : Request) (stream : Stream) (ingestType : IngestType) :
    Fields → Except String Fields :=
  patchReceived e.receivedAt c
    { messageId := e.messageId
      tp := e.tp
      ingestType := ingestType
      analyticContext := e.analyticContext
      defaultEventName := e.defaultEventName
      captureHeaders := stream.captureHeaders
      now := e.now }

def Envelope.message (e : Envelope) (c : Request) (loc : StreamCredentials) (stream : Stream)
    (ingestType : IngestType) : IngestMessage :=
  ingestMessage c e.messageId e.tp { loc with ingestType := ingestType } stream
    (patchedOr e.event (e.patch c stream ingestType e.event)).1

def ingest {β : Type} (codec : Codec β) (maxIngestPayloadSize : ℕ) (e : Envelope) (c : Request)
    (loc : StreamCredentials) (stream : Stream) (ingestType : IngestType) : Built β :=
  buildIngestMessage codec maxIngestPayloadSize c e.messageId e.tp { loc with ingestType := ingestType } stream
    (e.patch c stream ingestType) e.event

theorem ingest_bytes {β : Type} (codec : Codec β) (size : ℕ) (e : Envelope) (c : Request)
    (loc : StreamCredentials) (stream : Stream) (ingestType : IngestType) :
    (ingest codec size e c loc stream ingestType).bytes =
      (codec.marshal (e.message c loc stream ingestType)).toOption := by
  unfold ingest buildIngestMessage Envelope.message
  dsimp only
  generalize ingestMessage c e.messageId e.tp _ stream _ = message
  cases codec.marshal message with
  | error => rfl
  | ok bytes =>
    dsimp only
    split <;> rfl

theorem Codec.Faithful.marshal_eq {β : Type} {codec : Codec β} (hcodec : codec.Faithful)
    {m m' : IngestMessage} (h : (codec.marshal m).toOption = (codec.marshal m').toOption) :
    codec.marshal m = codec.marshal m' := by
  obtain ⟨bytes,hbytes⟩ := hcodec.total m
  obtain ⟨bytes',hbytes'⟩ := hcodec.total m'
  rw [hbytes,hbytes'] at h ⊢
  exact congrArg _ (Option.some.inj h)

structure Endpoint where
  repository : Streams
  checkHash : String → String → Bool
  decodeBase64 : String → Option String
  dataHosts : List String
  strict : Bool
  s2sEndpoint : Bool

structure Endpoint.Accepts (r : Endpoint) (c : Request) (bodyKey : String) (loc : StreamCredentials)
    (stream : Stream) (ingestType : IngestType) : Prop where
  located : getDataLocator r.decodeBase64 r.dataHosts c .writeKeyDefined bodyKey = .ok loc
  found : getStream r.repository r.checkHash loc r.strict r.s2sEndpoint = some (stream,ingestType)

section Secrecy

variable {β : Type} {codec : Codec β} {r : Endpoint} {c c' : Request} {bodyKey bodyKey' : String}
  {loc loc' : StreamCredentials} {stream : Stream} {ingestType ingestType' : IngestType}

theorem message_alike (hsame : SameButSecret r.decodeBase64 c c' bodyKey bodyKey')
    (h : r.Accepts c bodyKey loc stream ingestType) (h' : r.Accepts c' bodyKey' loc' stream ingestType')
    (e : Envelope) (tp : IngestType) :
    e.message c loc stream tp = { e.message c' loc' stream tp with httpHeaders := httpHeaders c } := by
  have hpatch : e.patch c stream tp = e.patch c' stream tp := by
    funext ev
    rw [Envelope.patch,Envelope.patch,patchReceived,hsame.patchEvent,patchReceived]
  obtain ⟨hslug,hdomain,hmask⟩ := hsame.located h.located h'.located
  simp only [Envelope.message,ingestMessage,hpatch,hmask,hslug,hdomain,hsame.urlScheme,hsame.urlHost]

theorem alike_of_bytes (hcodec : codec.Faithful) (hsame : SameButSecret r.decodeBase64 c c' bodyKey bodyKey')
    (h : r.Accepts c bodyKey loc stream ingestType) (h' : r.Accepts c' bodyKey' loc' stream ingestType')
    {size : ℕ} {e : Envelope} (hbytes : (ingest codec size e c loc stream ingestType).bytes =
      (ingest codec size e c' loc' stream ingestType').bytes) :
    c.getHeader "Authorization" = c'.getHeader "Authorization" ∧ ingestType = ingestType' := by
  rw [ingest_bytes,ingest_bytes] at hbytes
  have hmarshal := hcodec.marshal_eq hbytes
  have htype : ingestType = ingestType' := hcodec.ingestType _ _ hmarshal
  subst htype
  rw [message_alike hsame h h' e ingestType] at hmarshal
  exact ⟨hsame.authorization_of_httpHeaders (hcodec.httpHeaders _ _ _ hmarshal "Authorization"),rfl⟩

theorem write_key_secret_kept_iff (hcodec : codec.Faithful)
    (hsame : SameButSecret r.decodeBase64 c c' bodyKey bodyKey')
    (h : r.Accepts c bodyKey loc stream ingestType)
    (h' : r.Accepts c' bodyKey' loc' stream ingestType') (size : ℕ) (e : Envelope) :
    (ingest codec size e c loc stream ingestType).bytes =
    (ingest codec size e c' loc' stream ingestType').bytes ↔
      c.getHeader "Authorization" = c'.getHeader "Authorization" ∧ ingestType = ingestType' := by
  refine ⟨alike_of_bytes hcodec hsame h h',?_⟩
  rintro ⟨hauth,rfl⟩
  rw [ingest_bytes,ingest_bytes,message_alike hsame h h' e ingestType,hsame.httpHeaders_of_authorization hauth]
  rfl

end Secrecy

def siteStream : Stream := ⟨"site","workspace","Site",false,false,0,0,["connection"],[]⟩

def siteEndpoint : Endpoint where
  repository :=
    { apiKeyBindings := fun keyId => if keyId = "key" then some ⟨"hash",.s2s,"site"⟩ else none
      streamsByPlainKeyOrIds := fun id => if id = "site" then some siteStream else none
      s2sStreamsByPlainKeyOrIds := fun _ => none
      streamsByDomains := fun _ => []
      streams := [] }
  checkHash := fun _ secret => secret = "right"
  decodeBase64 := fun _ => none
  dataHosts := ["data.example"]
  strict := false
  s2sEndpoint := false

def siteRequest (name value : String) : Request where
  header := [(name,[value])]
  unique := List.nodup_singleton name
  host := "site.data.example"
  urlScheme := "https"
  urlHost := ""
  queryWriteKey := ""
  clientIp := "10.0.0.1"

def siteLocation (key : String) : StreamCredentials := ⟨"site","",key,.writeKeyDefined⟩

def plainEnvelope : Envelope := ⟨"message","page",none,"","2024-01-01T00:00:00.000Z",none,[]⟩

theorem secret_alike (secret secret' : String) : KeyAlike ("key" ++ ":" ++ secret) ("key" ++ ":" ++ secret') :=
  .inr ⟨"key",secret,secret',by decide,rfl,rfl⟩

theorem siteRequest_alike {name value value' : String}
    (h : HeaderAlike siteEndpoint.decodeBase64 (name,[value]) (name,[value'])) :
    SameButSecret siteEndpoint.decodeBase64 (siteRequest name value) (siteRequest name value') "" "" :=
  ⟨.cons h .nil,rfl,rfl,rfl,rfl,.inl rfl,.inl rfl⟩

theorem write_key_secret_kept_writeKeyHeader :
    (ingest jsonCodec 1000 plainEnvelope (siteRequest "X-Write-Key" "key:wrong") (siteLocation "key:wrong")
      siteStream .browser).bytes =
    (ingest jsonCodec 1000 plainEnvelope (siteRequest "X-Write-Key" "key:other") (siteLocation "key:other")
      siteStream .browser).bytes :=
  (write_key_secret_kept_iff jsonCodec_faithful
    (siteRequest_alike (.writeKey [] (secret_alike "wrong" "other")))
    (r := siteEndpoint) ⟨by rfl,by rfl⟩ ⟨by rfl,by rfl⟩ 1000 plainEnvelope).mpr
    ⟨by decide +kernel,rfl⟩

theorem write_key_secret_leaks :
    (∃ c c' loc loc', SameButSecret siteEndpoint.decodeBase64 c c' "" "" ∧
      siteEndpoint.Accepts c "" loc siteStream .browser ∧ siteEndpoint.Accepts c' "" loc' siteStream .browser ∧
      (ingest jsonCodec 1000 plainEnvelope c loc siteStream .browser).bytes ≠
        (ingest jsonCodec 1000 plainEnvelope c' loc' siteStream .browser).bytes) ∧
    ∃ c c' loc loc', SameButSecret siteEndpoint.decodeBase64 c c' "" "" ∧
      siteEndpoint.Accepts c "" loc siteStream .s2s ∧ siteEndpoint.Accepts c' "" loc' siteStream .browser ∧
      (ingest jsonCodec 1000 plainEnvelope c loc siteStream .s2s).bytes ≠
        (ingest jsonCodec 1000 plainEnvelope c' loc' siteStream .browser).bytes := by
  have hauth : SameButSecret siteEndpoint.decodeBase64 (siteRequest "Authorization" "Bearer key:wrong")
      (siteRequest "Authorization" "Bearer key:other") "" "" :=
    siteRequest_alike (.authorization [] ⟨by decide,by decide,"key:wrong","key:other",by rfl,by rfl,
      secret_alike "wrong" "other"⟩)
  have hkey := siteRequest_alike (.writeKey [] (secret_alike "right" "wrong"))
  have hwrong : siteEndpoint.Accepts (siteRequest "Authorization" "Bearer key:wrong") ""
    (siteLocation "key:wrong") siteStream .browser := ⟨by rfl,by rfl⟩
  have hother : siteEndpoint.Accepts (siteRequest "Authorization" "Bearer key:other") ""
    (siteLocation "key:other") siteStream .browser := ⟨by rfl,by rfl⟩
  have hright : siteEndpoint.Accepts (siteRequest "X-Write-Key" "key:right") ""
    (siteLocation "key:right") siteStream .s2s := ⟨by rfl,by rfl⟩
  have hslug : siteEndpoint.Accepts (siteRequest "X-Write-Key" "key:wrong") ""
    (siteLocation "key:wrong") siteStream .browser := ⟨by rfl,by rfl⟩
  refine ⟨⟨_,_,_,_,hauth,hwrong,hother,fun h => ?_⟩,_,_,_,_,hkey,hright,hslug,fun h => ?_⟩
  · exact absurd (alike_of_bytes jsonCodec_faithful hauth hwrong hother h).1 (by decide +kernel)
  · cases (alike_of_bytes jsonCodec_faithful hkey hright hslug h).2

end Jitsu.Ingest
