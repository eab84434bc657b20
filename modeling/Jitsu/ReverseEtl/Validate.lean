import Jitsu.Lib.Checked
import Jitsu.ReverseEtl.Types

namespace Jitsu.ReverseEtl
open Checked

variable {J : Type}

def require (p : Prop) [Decidable p] (message : String) : Except Failure Unit :=
  ensure p (.persistence message)

@[simp] theorem require_eq_ok {p : Prop} [Decidable p] {message : String} {u : Unit} :
    require p message = .ok u ↔ p := ensure_eq_ok

def arrayBytes (sizes : List ℕ) : ℕ := 2 + sizes.sum + (sizes.length - 1)

def projectedBytes (env : Env J) (projected : List (List (Effect J))) : ℕ :=
  arrayBytes (projected.map fun values => arrayBytes (values.map env.effectBytes))

def putArtifact {α : Type} (bytes : ℕ) (value : α) : ArtifactRef α := ⟨value,bytes + 22⟩

def encodeJson (env : Env J) (value : J) : Except Failure J := do
  require (env.jsonBytes value ≤ 65536) "Persisted value exceeds its byte budget"
  pure value

def Effect.ofIdentity (env : Env J) (value : Identity J) : Effect J :=
  { value with identityHash := env.contentHash value.identity
               payloadHash := env.contentHash value.upsert }

def effects (env : Env J) (identities : List (Identity J)) (allowEmpty : Bool) :
    Except Failure (List (Effect J)) := do
  require ((allowEmpty ∨ identities ≠ []) ∧ identities.length ≤ 100) "Invalid identity projection size"
  require (∀ value ∈ identities, env.isNull value.identity = false) "Invalid identity projection"
  let result := identities.map (Effect.ofIdentity env)
  require (result.map Effect.identityHash).Nodup "Duplicate projected identity"
  pure result

variable {env : Env J}

theorem effects_nodup {identities : List (Identity J)} {allowEmpty : Bool}
    {result : List (Effect J)} (h : effects env identities allowEmpty = .ok result) :
    (result.map Effect.identityHash).Nodup := by
  simp only [effects,bind_eq_ok,require_eq_ok,pure_eq_ok] at h
  obtain ⟨_,_,_,_,_,hn,rfl⟩ := h
  exact hn

theorem effects_hashed {identities : List (Identity J)} {allowEmpty : Bool}
    {result : List (Effect J)} (h : effects env identities allowEmpty = .ok result) {e : Effect J}
    (he : e ∈ result) : e.identityHash ≠ "" := by
  simp only [effects,bind_eq_ok,require_eq_ok,pure_eq_ok] at h
  obtain ⟨_,_,_,_,_,_,rfl⟩ := h
  obtain ⟨value,_,rfl⟩ := List.mem_map.mp he
  exact env.contentHash_ne_empty value.identity

def outcomeOf (outcomes : List RecordOutcome) (id : String) : Option Outcome :=
  (outcomes.find? (·.operationId = id)).map RecordOutcome.status

def validateBatchResult (env : Env J) (batch : PreparedBatch J) (result : BatchResult J) :
    Except Failure (BatchResult J) := do
  ensure (env.resultSchema result) (.protocol "Malformed writer batch response")
  ensure batch.operationIds.Nodup (.protocol "Duplicate input operation IDs")
  ensure ((∀ row ∈ result.outcomes, row.operationId ∈ batch.operationIds) ∧
      (result.outcomes.map RecordOutcome.operationId).Nodup)
    (.protocol "Foreign or duplicate outcome operation ID")
  ensure (result.outcomes.length = batch.records.length) (.protocol "Writer omitted operation outcomes")
  pure result

def validateFinishResult (env : Env J) (result : FinishResult J) : Except Failure (FinishResult J) := do
  ensure (env.finishSchema result) (.protocol "Malformed writer finish response")
  ensure (result.delivery = .accepted ∨ result.remoteJobIds.getD [] ≠ [])
    (.protocol "Pending finish requires recoverable remote job IDs")
  pure result

theorem validateFinishResult_ok {result result' : FinishResult J}
    (h : validateFinishResult env result = .ok result') : result' = result := by
  simp only [validateFinishResult,bind_eq_ok,pure_eq_ok] at h
  obtain ⟨_,_,_,_,rfl⟩ := h
  rfl

structure Answers (batch : PreparedBatch J) (result : BatchResult J) : Prop where
  ids : batch.operationIds.Nodup
  known : ∀ row ∈ result.outcomes, row.operationId ∈ batch.operationIds
  outcomeIds : (result.outcomes.map RecordOutcome.operationId).Nodup
  length : result.outcomes.length = batch.records.length

variable {batch : PreparedBatch J} {result : BatchResult J}

theorem validateBatchResult_eq_ok
    {result' : BatchResult J} :
    validateBatchResult env batch result = .ok result' ↔
      result' = result ∧ env.resultSchema result = true ∧ Answers batch result := by
  simp only [validateBatchResult,bind_eq_ok,ensure_eq_ok,pure_eq_ok]
  constructor
  · rintro ⟨_,hs,_,hi,_,⟨hk,ho⟩,_,hl,rfl⟩
    exact ⟨rfl,hs,hi,hk,ho,hl⟩
  · rintro ⟨rfl,hs,hi,hk,ho,hl⟩
    exact ⟨(),hs,(),hi,(),⟨hk,ho⟩,(),hl,rfl⟩

theorem outcomeOf_of_mem {outcomes : List RecordOutcome}
    (hn : (outcomes.map RecordOutcome.operationId).Nodup) {row : RecordOutcome}
    (h : row ∈ outcomes) : outcomeOf outcomes row.operationId = some row.status := by
  induction outcomes with
  | nil => simp at h
  | cons o os ih =>
    rw [List.map_cons,List.nodup_cons] at hn
    rcases List.mem_cons.mp h with rfl | h
    · simp [outcomeOf]
    · have hne : o.operationId ≠ row.operationId := by
        intro he
        exact hn.1 (he ▸ List.mem_map_of_mem h)
      simpa [outcomeOf,hne] using ih hn.2 h

theorem mem_of_outcomeOf {outcomes : List RecordOutcome} {id : String} {status : Outcome}
    (h : outcomeOf outcomes id = some status) : ⟨id,status⟩ ∈ outcomes := by
  simp only [outcomeOf,Option.map_eq_some_iff] at h
  obtain ⟨row,hrow,rfl⟩ := h
  have hid : row.operationId = id := by simpa using List.find?_some hrow
  have hm := List.mem_of_find?_eq_some hrow
  rwa [← hid]

theorem Answers.perm (h : Answers batch result) :
    (result.outcomes.map RecordOutcome.operationId).Perm batch.operationIds := by
  apply List.Subperm.perm_of_length_le
  · apply List.subperm_of_subset h.outcomeIds
    intro id hid
    obtain ⟨row,hrow,rfl⟩ := List.mem_map.mp hid
    exact h.known row hrow
  · simp [PreparedBatch.operationIds,h.length]

theorem Answers.outcome (h : Answers batch result)
    {id : String} (hid : id ∈ batch.operationIds) : ∃ status, outcomeOf result.outcomes id = some status := by
  obtain ⟨row,hrow,rfl⟩ := List.mem_map.mp (h.perm.mem_iff.mpr hid)
  exact ⟨row.status,outcomeOf_of_mem h.outcomeIds hrow⟩

end Jitsu.ReverseEtl
