import Jitsu.Lib.Transition
import Jitsu.Lib.Versioned

namespace Jitsu.Leases.Sidecar

open Jitsu.Transition Jitsu.Versioned

variable {P : Type}

structure LeaseSpec (P : Type) where
  holderIdentity : P
  leaseDurationSeconds : ℕ
  renewTime : Option ℕ
  deriving DecidableEq, Repr

def second : ℕ := 1000000

def leaseDurationSeconds : ℕ := 60

def leaseAcquireMaxAttempts : ℕ := 10

def leaseIsStale (now : ℕ) (l : LeaseSpec P) : Bool :=
  match l.renewTime with
  | none => true
  | some renewedAt =>
    let dur := (if l.leaseDurationSeconds = 0 then leaseDurationSeconds else l.leaseDurationSeconds) * second
    renewedAt + dur < now

abbrev Lease (P : Type) := Stored (LeaseSpec P)

inductive Acquire (P : Type) where
  | attempt (n : ℕ)
  | started (n now : ℕ)
  | got (n now : ℕ) (existing : Option (Lease P))
  | writing (n now : ℕ) (existing : Option (Lease P))
  | acquired
  | gaveUp
  deriving DecidableEq, Repr

inductive Renew (P : Type) where
  | idle
  | got (existing : Lease P)
  | writing (existing : Lease P) (renewTime : ℕ)
  deriving DecidableEq, Repr

structure Pod (P : Type) where
  acquire : Acquire P
  renew : Renew P
  leaseLost : Bool
  leaseReleased : Bool
  deleting : Bool
  renewed : Option ℕ
  deriving DecidableEq, Repr

def Pod.start : Pod P := ⟨.attempt 1,.idle,false,false,false,none⟩

structure Cluster (P : Type) where
  server : Store (LeaseSpec P)
  clock : ℕ
  pods : P → Pod P
  removed : List (P × LeaseSpec P)

inductive Delivery where
  | failed
  | answered
  | unanswered
  deriving DecidableEq, Repr

inductive Action (P : Type) where
  | wait (microseconds : ℕ)
  | acquireStart (p : P) (now : ℕ)
  | acquireGet (p : P) (delivery : Delivery)
  | acquireDecide (p : P) (now : ℕ)
  | acquireWrite (p : P) (delivery : Delivery)
  | renewGet (p : P) (delivery : Delivery)
  | renewPrepare (p : P) (now : ℕ)
  | renewWrite (p : P) (delivery : Delivery)
  | signal (p : P)
  | exit (p : P)
  | delete (p : P) (delivery : Delivery)
  deriving DecidableEq, Repr

def nextAttempt (n : ℕ) : Acquire P := if n < leaseAcquireMaxAttempts then .attempt (n + 1) else .gaveUp

inductive Response (P : Type) where
  | ok (server : Store (LeaseSpec P))
  | notFound
  | conflict

def respond (server : Store (LeaseSpec P)) (existing : Option (Lease P)) (spec : LeaseSpec P) : Response P :=
  match server.write existing spec with
  | some server => .ok server
  | none => if existing.isSome ∧ server.object = none then .notFound else .conflict

namespace Cluster

variable [DecidableEq P]

def setPod (c : Cluster P) (p : P) (pod : Pod P) : Cluster P :=
  { c with pods := Function.update c.pods p pod }

theorem setPod_self (c : Cluster P) (p : P) (pod : Pod P) : (c.setPod p pod).pods p = pod :=
  Function.update_self ..

theorem setPod_other (c : Cluster P) {p q : P} (pod : Pod P) (h : q ≠ p) :
    (c.setPod p pod).pods q = c.pods q := Function.update_of_ne h ..

def acquireStart (c : Cluster P) (p : P) (now : ℕ) : Option (Cluster P) :=
  match (c.pods p).acquire with
  | .attempt n => some (c.setPod p { c.pods p with acquire := .started n now })
  | _ => none

def acquireGet (c : Cluster P) (p : P) (delivery : Delivery) : Option (Cluster P) :=
  match (c.pods p).acquire with
  | .started n now =>
    some (c.setPod p { c.pods p with
      acquire := if delivery = .answered then .got n now c.server.object else nextAttempt n })
  | _ => none

def acquireDecide (c : Cluster P) (p : P) (now : ℕ) : Option (Cluster P) :=
  match (c.pods p).acquire with
  | .got n renewTime existing =>
    some (c.setPod p { c.pods p with
      acquire := if existing.all (fun l => leaseIsStale now l.value) then .writing n renewTime existing
        else nextAttempt n })
  | _ => none

def acquireWrite (c : Cluster P) (p : P) (delivery : Delivery) : Option (Cluster P) :=
  match (c.pods p).acquire with
  | .writing n now existing =>
    let retry := { c.pods p with acquire := nextAttempt n }
    let success := if delivery = .answered then { c.pods p with acquire := .acquired } else retry
    if delivery = .failed then some (c.setPod p retry)
    else
      match respond c.server existing ⟨p,leaseDurationSeconds,some now⟩ with
      | .conflict => some (c.setPod p retry)
      | .notFound => some (c.setPod p success)
      | .ok server => some { c.setPod p { success with renewed := some now } with server := server }
  | _ => none

def renewGet (c : Cluster P) (p : P) (delivery : Delivery) : Option (Cluster P) :=
  let pod := c.pods p
  if pod.acquire = .acquired ∧ pod.leaseLost = false ∧ pod.renew = .idle then
    if delivery ≠ .answered then some c
    else
      match c.server.object with
      | none => some (c.setPod p { pod with leaseLost := true })
      | some existing =>
        some (c.setPod p (if existing.value.holderIdentity = p then { pod with renew := .got existing }
          else { pod with leaseLost := true }))
  else none

def renewPrepare (c : Cluster P) (p : P) (now : ℕ) : Option (Cluster P) :=
  match (c.pods p).renew with
  | .got existing => some (c.setPod p { c.pods p with renew := .writing existing now })
  | _ => none

def renewWrite (c : Cluster P) (p : P) (delivery : Delivery) : Option (Cluster P) :=
  match (c.pods p).renew with
  | .writing existing renewTime =>
    let pod := { c.pods p with renew := .idle }
    if delivery = .failed then some (c.setPod p pod)
    else
      match respond c.server (some existing) { existing.value with renewTime := some renewTime } with
      | .conflict => some (c.setPod p (if delivery = .answered then { pod with leaseLost := true } else pod))
      | .notFound => some (c.setPod p pod)
      | .ok server => some { c.setPod p { pod with renewed := some renewTime } with server := server }
  | _ => none

def release (c : Cluster P) (p : P) : Option (Cluster P) :=
  let pod := c.pods p
  if pod.acquire = .acquired then
    some (if pod.leaseLost = false ∧ pod.leaseReleased = false then
      c.setPod p { pod with leaseReleased := true, deleting := true } else c)
  else none

def delete (c : Cluster P) (p : P) (delivery : Delivery) : Option (Cluster P) :=
  let pod := c.pods p
  if pod.deleting then
    if delivery = .failed then some (c.setPod p { pod with deleting := false })
    else some { c.setPod p { pod with deleting := false, renewed := none } with
      server := c.server.remove
      removed := c.removed ++ (c.server.object.map (fun l => (p,l.value))).toList }
  else none

def step (c : Cluster P) : Action P → Option (Cluster P)
  | .wait microseconds => some { c with clock := c.clock + microseconds }
  | .acquireStart p now => c.acquireStart p now
  | .acquireGet p delivery => c.acquireGet p delivery
  | .acquireDecide p now => c.acquireDecide p now
  | .acquireWrite p delivery => c.acquireWrite p delivery
  | .renewGet p delivery => c.renewGet p delivery
  | .renewPrepare p now => c.renewPrepare p now
  | .renewWrite p delivery => c.renewWrite p delivery
  | .signal p => c.release p
  | .exit p => c.release p
  | .delete p delivery => c.delete p delivery

end Cluster

def sidecars (P : Type) [DecidableEq P] : System (Cluster P) (Action P) where
  initial c := c = ⟨⟨none,0⟩,0,fun _ => .start,[]⟩
  step := Cluster.step

end Jitsu.Leases.Sidecar
