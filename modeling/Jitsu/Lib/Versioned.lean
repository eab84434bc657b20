import Mathlib

namespace Jitsu.Versioned

variable {β : Type}

structure Stored (β : Type) where
  value : β
  uid : ℕ
  resourceVersion : ℕ
  deriving DecidableEq, Repr

structure Store (β : Type) where
  object : Option (Stored β)
  counter : ℕ
  deriving DecidableEq, Repr

namespace Store

def create (s : Store β) (value : β) : Option (Store β) :=
  match s.object with
  | some _ => none
  | none => some ⟨some ⟨value,s.counter + 1,s.counter + 1⟩,s.counter + 1⟩

def replace (s : Store β) (resourceVersion : ℕ) (value : β) : Option (Store β) :=
  match s.object with
  | none => none
  | some o =>
    if o.resourceVersion = resourceVersion then some ⟨some ⟨value,o.uid,s.counter + 1⟩,s.counter + 1⟩ else none

def remove (s : Store β) : Store β := { s with object := none }

def removeIf (s : Store β) (uid resourceVersion : ℕ) : Option (Store β) :=
  match s.object with
  | none => none
  | some o => if o.uid = uid ∧ o.resourceVersion = resourceVersion then some s.remove else none

def write (s : Store β) (existing : Option (Stored β)) (value : β) : Option (Store β) :=
  match existing with
  | none => s.create value
  | some o => s.replace o.resourceVersion value

def Current (s : Store β) : Prop := ∀ o, s.object = some o → o.resourceVersion ≤ s.counter

structure Seen (s : Store β) (o : Stored β) : Prop where
  old : o.resourceVersion ≤ s.counter
  same : ∀ c, s.object = some c → c.resourceVersion = o.resourceVersion → c = o

variable {s t : Store β} {o : Stored β} {value : β}

theorem Current.seen (h : s.Current) (ho : s.object = some o) : s.Seen o := by
  refine ⟨h o ho,?_⟩
  intro c hc _
  rw [ho] at hc
  cases hc
  rfl

structure Written (s t : Store β) (value : β) : Prop where
  object : ∃ uid, t.object = some ⟨value,uid,s.counter + 1⟩
  counter : t.counter = s.counter + 1

theorem create_written (h : s.create value = some t) : s.object = none ∧ Written s t value := by
  unfold create at h
  split at h <;> cases h
  exact ⟨‹_›,⟨_,rfl⟩,rfl⟩

theorem replace_written (hs : s.Seen o) (h : s.replace o.resourceVersion value = some t) :
    s.object = some o ∧ Written s t value := by
  unfold replace at h
  split at h
  · cases h
  · rename_i c hc
    split at h <;> cases h
    have hco := hs.same c hc ‹_›
    rw [hco] at hc
    exact ⟨hc,⟨_,rfl⟩,rfl⟩

theorem write_written {existing : Option (Stored β)} (hs : ∀ o, existing = some o → s.Seen o)
    (h : s.write existing value = some t) : s.object = existing ∧ Written s t value := by
  cases existing with
  | none => exact create_written h
  | some o => exact replace_written (hs o rfl) h

theorem removeIf_removed (hs : s.Seen o) (h : s.removeIf o.uid o.resourceVersion = some t) :
    s.object = some o ∧ t = s.remove := by
  unfold removeIf at h
  split at h
  · cases h
  · rename_i c hc
    split at h
    · rename_i hm
      cases h
      have hco := hs.same c hc hm.2
      rw [hco] at hc
      exact ⟨hc,rfl⟩
    · cases h

theorem Written.current (h : Written s t value) : t.Current := by
  obtain ⟨⟨uid,ho⟩,hc⟩ := h
  intro o ho'
  rw [ho] at ho'
  cases ho'
  exact le_of_eq hc.symm

theorem Written.seen (h : Written s t value) (ho : s.Seen o) : t.Seen o := by
  obtain ⟨⟨uid,hobj⟩,hc⟩ := h
  have hold := ho.old
  refine ⟨by omega,?_⟩
  intro c hc' hv
  rw [hobj] at hc'
  cases hc'
  have hv' : s.counter + 1 = o.resourceVersion := hv
  omega

theorem remove_current : s.remove.Current := by
  intro o ho
  cases ho

theorem Seen.remove (ho : s.Seen o) : s.remove.Seen o := by
  refine ⟨ho.old,?_⟩
  intro c hc
  cases hc

end Store

end Jitsu.Versioned
