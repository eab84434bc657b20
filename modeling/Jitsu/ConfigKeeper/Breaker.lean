import Jitsu.ConfigKeeper.Canonical
import Jitsu.Lib.Transition

namespace Jitsu.ConfigKeeper
open Transition

structure BreakerConfig where
  maxChangePercent : ℚ
  maxRemovePercent : ℚ
  minChangedRows : ℤ
  deriving DecidableEq, Repr

abbrev Decoder := Bytes → Option Json

structure Breaker where
  baseline : RowMap
  lastRejected : UInt64
  acceptArmedUntil : Option ℕ
  held : Bool
  data : Option Bytes
  deriving DecidableEq, Repr

inductive Verdict where
  | unchanged
  | notArray
  | untracked (noId total : ℕ)
  | changed (changed common : ℕ)
  | removed (removed total : ℕ)
  | replayed
  | accepted
  deriving DecidableEq, Repr

def Verdict.ok : Verdict → Bool
  | .replayed | .accepted => true
  | _ => false

def percent (part whole : ℕ) : ℚ := (part : ℚ) / whole * 100

def acceptTTL : ℕ := 15 * 60

variable (cfg : BreakerConfig) (decode : Decoder)

def payloadRows (payload : Bytes) : Option RowHashes := (decode payload).bind hashRows

namespace Breaker

def seeded (cache : Option Bytes) : Breaker where
  baseline := ((cache.bind (payloadRows decode)).map RowHashes.hashes).getD []
  lastRejected := 0
  acceptArmedUntil := none
  held := false
  data := none

def armed (now : ℕ) (b : Breaker) : Bool := b.acceptArmedUntil.any fun t => now < t

def acceptNext (now : ℕ) (b : Breaker) : Breaker := { b with acceptArmedUntil := some (now + acceptTTL) }

def untracked (r : RowHashes) : Prop :=
  0 < r.noId ∧ cfg.maxRemovePercent < percent r.noId (r.noId + r.hashes.length)

instance (r : RowHashes) : Decidable (untracked cfg r) := inferInstanceAs (Decidable (_ ∧ _))

def trip (baseline updated : RowMap) : Option Verdict :=
  let diff := diffRows baseline updated
  let removed := baseline.length - diff.2
  if cfg.minChangedRows ≤ diff.1 ∧ cfg.maxChangePercent < percent diff.1 diff.2 then
    some (.changed diff.1 diff.2)
  else if cfg.minChangedRows ≤ removed ∧ cfg.maxRemovePercent < percent removed baseline.length then
    some (.removed removed baseline.length)
  else none

def replays (tag : Option ℕ) (updated : RowMap) (b : Breaker) : Prop :=
  tag = none ∧ b.held = true ∧ b.data = none ∧ diffRows b.baseline updated = (0,updated.length)

instance (tag : Option ℕ) (updated : RowMap) (b : Breaker) : Decidable (replays tag updated b) :=
  inferInstanceAs (Decidable (_ ∧ _ ∧ _ ∧ _))

def serve (payload : Bytes) (tag : Option ℕ) (updated : RowMap) (b : Breaker) : Verdict × Breaker :=
  if b.replays tag updated then (.replayed,{ b with acceptArmedUntil := none, data := some payload })
  else
    (.accepted,
      { baseline := updated
        lastRejected := 0
        acceptArmedUntil := none
        held := false
        data := some payload })

def judge (now : ℕ) (payload : Bytes) (tag : Option ℕ) (r : RowHashes) (b : Breaker) : Verdict × Breaker :=
  if untracked cfg r then (.untracked r.noId (r.noId + r.hashes.length),b)
  else
    match (if b.baseline ≠ [] ∧ b.armed now = false then trip cfg b.baseline r.hashes else none) with
    | some verdict => (verdict,{ b with held := true, lastRejected := hashBytes payload })
    | none => b.serve payload tag r.hashes

def init (now : ℕ) (payload : Bytes) (tag : Option ℕ) (b : Breaker) : Verdict × Breaker :=
  if b.held = true ∧ b.armed now = false ∧ hashBytes payload = b.lastRejected then (.unchanged,b)
  else
    match payloadRows decode payload with
    | none => (.notArray,b)
    | some r => b.judge cfg now payload tag r

end Breaker

inductive Fetch where
  | failed
  | notModified
  | unreadable
  | body (payload : Bytes) (tag : Option ℕ)
  deriving DecidableEq, Repr

structure Attempt where
  elapsed : ℕ
  fetch : Fetch
  stored : Bool
  deriving DecidableEq, Repr

inductive Entry where
  | restart (seed : Option Bytes)
  | accept (time : ℕ)
  | generation (payload : Bytes)
  deriving DecidableEq, Repr

structure Repository where
  breaker : Breaker
  inited : Bool
  tag : Option ℕ
  deriving DecidableEq, Repr

structure Keeper where
  now : ℕ
  cache : Option Bytes
  repository : Option Repository
  trace : List Entry
  deriving DecidableEq, Repr

inductive Action where
  | refresh (attempts : List Attempt)
  | acceptNext
  | tick (elapsed : ℕ)
  | restart
  deriving DecidableEq, Repr

structure Settings where
  cacheDir : Bool
  attempts : ℕ
  deriving DecidableEq, Repr

namespace Keeper

def boot (settings : Settings) (k : Keeper) : Keeper :=
  let cache := if settings.cacheDir then k.cache else none
  let seed := cache.filter fun data => (payloadRows decode data).isSome
  { k with
    repository := some ⟨.seeded decode seed,false,none⟩
    trace := .restart seed :: k.trace }

def generation (payload : Bytes) (r : Repository) (b : Breaker) (k : Keeper) : Keeper :=
  { k with
    repository := some { r with breaker := b, inited := true }
    trace := .generation payload :: k.trace }

def store (settings : Settings) (stored : Bool) (payload : Bytes) (k : Keeper) : Keeper :=
  if settings.cacheDir && stored then { k with cache := some payload } else k

def loadCached (settings : Settings) (r : Repository) (k : Keeper) : Keeper :=
  match (if settings.cacheDir then k.cache else none) with
  | none => { k with repository := none }
  | some data =>
    let out := r.breaker.init cfg decode k.now data none
    if data = [] ∨ out.1.ok = false then { k with repository := none }
    else k.generation data r out.2

def refresh (settings : Settings) (error : Bool) (r : Repository) : List Attempt → Keeper → Keeper
  | [], k =>
    if error && !r.inited then k.loadCached cfg decode settings r else { k with repository := some r }
  | a :: attempts, k =>
    let k := { k with now := k.now + a.elapsed }
    match a.fetch with
    | .failed => k.refresh settings true r attempts
    | .unreadable => k.refresh settings true r attempts
    | .notModified => { k with repository := some r }
    | .body payload tag =>
      let out := r.breaker.init cfg decode k.now payload tag
      if out.1.ok then (k.generation payload { r with tag := tag } out.2).store settings a.stored payload
      else k.refresh settings true { r with breaker := out.2 } attempts

end Keeper

def keeper (settings : Settings) : System Keeper Action where
  initial k := k.repository = none ∧ k.trace = []
  step k
    | .refresh attempts => k.repository.bind fun r =>
        if attempts.length = settings.attempts then some (k.refresh cfg decode settings false r attempts)
        else none
    | .acceptNext => k.repository.map fun r =>
        { k with
          repository := some { r with breaker := r.breaker.acceptNext k.now }
          trace := .accept k.now :: k.trace }
    | .tick elapsed => some { k with now := k.now + elapsed }
    | .restart => some (k.boot decode settings)

end Jitsu.ConfigKeeper
