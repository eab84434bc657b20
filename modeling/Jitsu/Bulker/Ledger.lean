import Jitsu.Bulker.RetryConsumer

namespace Jitsu.Bulker

structure Ledger where
  original : List Message
  retry : List Message
  deadLetter : List Message
  ids : List ℕ
  sent : List ℕ
  loaded : List ℕ
  entered : List ℕ
  moved : List ℕ
  attempts : List Attempt

structure Handed (cfg : Config) (p : Produced) (m : Message) : Prop where
  target : p.target = failedTarget cfg m
  id : p.message.id = m.id
  retries : p.message.retries = .value (getKafkaIntHeader m.retries).1
  originalTopic : p.message.originalTopic = cfg.topicId

theorem handed_failedMessage (cfg : Config) (originalErr : String) (now offset : ℕ) (m : Message) :
    Handed cfg ⟨offset,failedTarget cfg m,failedMessage cfg originalErr now m⟩ m := ⟨rfl,rfl,rfl,rfl⟩

namespace Ledger

open Topics

def live (l : Ledger) : List Message := l.original ++ l.retry ++ l.deadLetter

def copies (l : Ledger) (id : ℕ) : ℕ := (l.live.map Message.id).count id

def moves (l : Ledger) (id : ℕ) : ℕ := l.moved.count id

inductive Step (cfg : Config) (l : Ledger) : Ledger → Prop
  | send (m : Message) (fresh : m.id ∉ l.ids) (first : m.retries = .absent) :
      Step cfg l { l with original := l.original ++ [m], ids := m.id :: l.ids, sent := m.id :: l.sent }
  | foreign (m : Message) (fresh : m.id ∉ l.ids) (other : m.originalTopic ≠ cfg.topicId) :
      Step cfg l { l with retry := l.retry ++ [m], ids := m.id :: l.ids }
  | load (xs rest : List Message) (committed : Bool) (split : l.original = xs ++ rest) :
      Step cfg l { l with
        original := if committed then rest else l.original
        loaded := l.loaded ++ xs.map Message.id }
  | enter (xs rest : List Message) (split : l.original = xs ++ rest) :
      Step cfg l { l with entered := l.entered ++ xs.map Message.id }
  | handOff (ps : List Produced) (xs rest : List Message) (split : l.original = xs ++ rest)
      (handed : List.Forall₂ (Handed cfg) ps xs) :
      Step cfg l { l with
        original := rest
        retry := l.retry ++ targeted .retry ps
        deadLetter := l.deadLetter ++ targeted .deadLetter ps
        attempts := l.attempts ++ ps.map attemptOf }
  | giveBack (items : List (Message × Option Moved)) (rest : List Message)
      (split : l.retry = items.map Prod.fst ++ rest)
      (retried : ∀ i ∈ items, ∃ now, i.2 = retryMessage cfg now i.1) :
      Step cfg l { l with
        original := l.original ++ addressed cfg.topicId (items.filterMap Prod.snd)
        retry := rest ++ addressed cfg.retryTopic (items.filterMap Prod.snd)
        moved := l.moved ++ (addressed cfg.topicId (items.filterMap Prod.snd)).map Message.id }

structure Waiting (cfg : Config) (moves : ℕ) (m : Message) : Prop where
  originalTopic : m.originalTopic = cfg.topicId
  retries : m.retries = .value moves
  bounded : moves < cfg.messagesRetryCount

structure Balanced (cfg : Config) (l : Ledger) : Prop where
  single : ∀ id, l.copies id ≤ 1
  known : ∀ id, id ∉ l.ids → l.copies id = 0
  sent : ∀ id ∈ l.sent, id ∈ l.ids
  kept : ∀ id ∈ l.sent, id ∉ l.loaded → l.copies id = 1
  entered : ∀ id ∈ l.entered, id ∈ l.sent
  moved : ∀ id ∈ l.moved, id ∈ l.sent
  bounded : ∀ id, l.moves id ≤ cfg.messagesRetryCount
  original : ∀ m ∈ l.original, m.id ∈ l.sent ∧ getKafkaIntHeader m.retries = ((l.moves m.id : ℤ),true)
  retry : ∀ m ∈ l.retry, m.id ∈ l.sent ∧ Waiting cfg (l.moves m.id) m ∨
    m.id ∉ l.sent ∧ m.originalTopic ≠ cfg.topicId
  dead : ∀ m ∈ l.deadLetter, m.retries = .value (l.moves m.id) ∧ l.moves m.id = cfg.messagesRetryCount
  attempts : ∀ a ∈ l.attempts, a.target = .deadLetter ↔ a.retries = cfg.messagesRetryCount
  letters : l.deadLetter.map Message.id =
    (l.attempts.filter (fun a => a.target = .deadLetter)).map Attempt.id

variable {cfg : Config} {l : Ledger}

def held (ms : List Message) (id : ℕ) : ℕ := (ms.map Message.id).count id

theorem held_append {ms ms' : List Message} {id : ℕ} : held (ms ++ ms') id = held ms id + held ms' id := by
  rw [held,List.map_append,List.count_append,held,held]

theorem held_cons {m : Message} {ms : List Message} {id : ℕ} :
    held (m :: ms) id = held ms id + if m.id = id then 1 else 0 := by
  rw [held,List.map_cons,List.count_cons,held]
  simp only [beq_iff_eq]

theorem held_pos {m : Message} {ms : List Message} (hm : m ∈ ms) : 0 < held ms m.id :=
  List.count_pos_iff.mpr (List.mem_map_of_mem hm)

theorem copies_eq (l : Ledger) (id : ℕ) :
    l.copies id = held l.original id + held l.retry id + held l.deadLetter id := by
  rw [copies,live,← held,held_append,held_append]

variable {ps : List Produced} {xs : List Message}

theorem handed_ids (h : List.Forall₂ (Handed cfg) ps xs) :
    held (ps.map Produced.message) = held xs := by
  funext id
  induction h with
  | nil => rfl
  | cons hp _ ih => rw [List.map_cons,held_cons,held_cons,hp.id,ih]

theorem targeted_cons (target : Target) (p : Produced) (ps : List Produced) :
    targeted target (p :: ps) = if p.target = target then p.message :: targeted target ps
      else targeted target ps := by
  unfold targeted
  rw [List.filter_cons]
  split <;> simp_all

theorem targeted_count (ps : List Produced) (id : ℕ) :
    held (targeted .retry ps) id + held (targeted .deadLetter ps) id =
      held (ps.map Produced.message) id := by
  induction ps with
  | nil => rfl
  | cons p ps ih =>
    rw [targeted_cons,targeted_cons,List.map_cons,held_cons]
    cases p.target with
    | retry =>
      rw [if_pos rfl,if_neg (by decide),held_cons]
      omega
    | deadLetter =>
      rw [if_neg (by decide),if_pos rfl,held_cons]
      omega

variable {m : Message}

theorem mem_targeted {target : Target} :
    m ∈ targeted target ps ↔ ∃ p ∈ ps, p.target = target ∧ p.message = m := by
  simp [targeted,and_assoc]

theorem handed_mem (h : List.Forall₂ (Handed cfg) ps xs)
    {p : Produced} (hp : p ∈ ps) : ∃ m ∈ xs, Handed cfg p m := by
  induction h with
  | nil => cases hp
  | @cons q m ps xs hq _ ih =>
    rcases List.mem_cons.mp hp with rfl | hp
    · exact ⟨m,List.mem_cons_self,hq⟩
    · obtain ⟨m',hm',hq'⟩ := ih hp
      exact ⟨m',List.mem_cons_of_mem m hm',hq'⟩

theorem mem_live : m ∈ l.live ↔ m ∈ l.original ∨ m ∈ l.retry ∨ m ∈ l.deadLetter := by
  rw [live,List.mem_append,List.mem_append,or_assoc]

theorem copies_pos (hm : m ∈ l.live) : 0 < l.copies m.id :=
  held_pos hm

section

variable (h : Balanced cfg l)

include h

theorem Balanced.mem_ids (hm : m ∈ l.live) : m.id ∈ l.ids := by
  by_contra hid
  have hpos := copies_pos hm
  rw [h.known m.id hid] at hpos
  cases hpos

theorem Balanced.arrival {n : ℕ} (fresh : n ∉ l.ids) (id : ℕ) :
    (l.copies id + if n = id then 1 else 0) ≤ 1 ∧
      (id ∉ n :: l.ids → (l.copies id + if n = id then 1 else 0) = 0) := by
  rcases eq_or_ne n id with rfl | hne
  · rw [if_pos rfl,h.known n fresh]
    exact ⟨le_refl 1,fun hn => absurd List.mem_cons_self hn⟩
  · rw [if_neg hne]
    exact ⟨h.single id,fun hn => h.known id (fun hid => hn (List.mem_cons_of_mem n hid))⟩

theorem send_balanced (fresh : m.id ∉ l.ids) (first : m.retries = .absent) :
    Balanced cfg { l with original := l.original ++ [m], ids := m.id :: l.ids, sent := m.id :: l.sent } := by
  have hcopies : ∀ id, copies { l with
      original := l.original ++ [m], ids := m.id :: l.ids, sent := m.id :: l.sent } id =
      l.copies id + if m.id = id then 1 else 0 := by
    intro id
    rw [copies_eq,copies_eq,held_append,held_cons]
    simp only [held,List.map_nil,List.count_nil]
    omega
  have hmoves : l.moves m.id = 0 :=
    List.count_eq_zero.mpr fun hm => fresh (h.sent m.id (h.moved m.id hm))
  exact { h with
    single := fun n => hcopies n ▸ (h.arrival fresh n).1
    known := fun n hn => hcopies n ▸ (h.arrival fresh n).2 hn
    sent := fun n hid => List.mem_cons.mpr ((List.mem_cons.mp hid).imp_right (h.sent n))
    kept := by
      intro id hid hl
      rw [hcopies]
      rcases eq_or_ne m.id id with heq | hne
      · rw [if_pos heq,← heq,h.known m.id fresh]
      · rw [if_neg hne]
        exact h.kept id ((List.mem_cons.mp hid).resolve_left (Ne.symm hne)) hl
    entered := fun id hid => List.mem_cons_of_mem _ (h.entered id hid)
    moved := fun id hid => List.mem_cons_of_mem _ (h.moved id hid)
    original := by
      intro m' hm'
      rcases List.mem_append.mp hm' with hm' | hm'
      · obtain ⟨hs,hr⟩ := h.original m' hm'
        exact ⟨List.mem_cons_of_mem _ hs,hr⟩
      · obtain rfl := List.mem_singleton.mp hm'
        refine ⟨List.mem_cons_self,?_⟩
        rw [first]
        change (0,true) = ((l.moves m'.id : ℤ),true)
        rw [hmoves]
        rfl
    retry := by
      intro m' hm'
      rcases h.retry m' hm' with ⟨hs,hw⟩ | ⟨hs,ht⟩
      · exact .inl ⟨List.mem_cons_of_mem _ hs,hw⟩
      · refine .inr ⟨?_,ht⟩
        rintro hmem
        rcases List.mem_cons.mp hmem with heq | hmem
        · exact fresh (heq ▸ h.mem_ids (mem_live.mpr (.inr (.inl hm'))))
        · exact hs hmem }

theorem foreign_balanced (fresh : m.id ∉ l.ids)
    (other : m.originalTopic ≠ cfg.topicId) :
    Balanced cfg { l with retry := l.retry ++ [m], ids := m.id :: l.ids } := by
  have hcopies : ∀ id, copies { l with retry := l.retry ++ [m], ids := m.id :: l.ids } id =
      l.copies id + if m.id = id then 1 else 0 := by
    intro id
    rw [copies_eq,copies_eq,held_append,held_cons]
    simp only [held,List.map_nil,List.count_nil]
    omega
  have hsent : m.id ∉ l.sent := fun hm => fresh (h.sent m.id hm)
  exact { h with
    single := fun n => hcopies n ▸ (h.arrival fresh n).1
    known := fun n hn => hcopies n ▸ (h.arrival fresh n).2 hn
    sent := fun id hid => List.mem_cons_of_mem _ (h.sent id hid)
    kept := by
      intro id hid hl
      have hne : m.id ≠ id := fun heq => hsent (by rw [heq]; exact hid)
      rw [hcopies,if_neg hne]
      exact h.kept id hid hl
    retry := by
      intro m' hm'
      rcases List.mem_append.mp hm' with hm' | hm'
      · exact h.retry m' hm'
      · obtain rfl := List.mem_singleton.mp hm'
        exact .inr ⟨hsent,other⟩ }

theorem load_balanced {rest : List Message} (committed : Bool)
    (split : l.original = xs ++ rest) :
    Balanced cfg { l with
      original := if committed then rest else l.original
      loaded := l.loaded ++ xs.map Message.id } := by
  have hcopies : ∀ id, copies { l with
      original := if committed then rest else l.original
      loaded := l.loaded ++ xs.map Message.id } id +
      (if committed then held xs id else 0) = l.copies id := by
    intro id
    rw [copies_eq,copies_eq]
    cases committed with
    | false => rfl
    | true =>
      simp only [if_true]
      rw [split,held_append]
      omega
  have hmem : ∀ m ∈ (if committed then rest else l.original), m ∈ l.original := by
    intro m hm
    cases committed with
    | false => exact hm
    | true =>
      rw [split]
      exact List.mem_append_right xs hm
  exact { h with
    single := fun id => (by have := hcopies id; have := h.single id; omega)
    known := fun id hid => (by have := hcopies id; have := h.known id hid; omega)
    kept := by
      intro id hid hl
      rw [List.mem_append,not_or] at hl
      have hzero : held xs id = 0 := List.count_eq_zero.mpr hl.2
      have hc := hcopies id
      rw [hzero,ite_self,h.kept id hid hl.1] at hc
      exact hc
    original := fun m hm => h.original m (hmem m hm) }

theorem enter_balanced {rest : List Message} (split : l.original = xs ++ rest) :
    Balanced cfg { l with entered := l.entered ++ xs.map Message.id } :=
  { h with
    entered := by
      intro id hid
      rcases List.mem_append.mp hid with hid | hid
      · exact h.entered id hid
      · obtain ⟨m,hm,rfl⟩ := List.mem_map.mp hid
        exact (h.original m (split ▸ List.mem_append_left rest hm)).1 }

end

theorem failedTarget_deadLetter {n : ℕ} (hm : getKafkaIntHeader m.retries = ((n : ℤ),true))
    (hn : n ≤ cfg.messagesRetryCount) :
    failedTarget cfg m = .deadLetter ↔ n = cfg.messagesRetryCount := by
  unfold failedTarget
  rw [hm]
  split
  · rename_i hle
    exact ⟨fun _ => (by omega),fun _ => rfl⟩
  · rename_i hle
    refine ⟨nofun,fun h => absurd ?_ hle⟩
    rw [h]

theorem letters_append (ps : List Produced) :
    (targeted .deadLetter ps).map Message.id =
      ((ps.map attemptOf).filter (fun a => a.target = .deadLetter)).map Attempt.id := by
  rw [targeted,List.filter_map,List.map_map,List.map_map]
  rfl

theorem handOff_balanced (h : Balanced cfg l) {rest : List Message}
    (split : l.original = xs ++ rest) (handed : List.Forall₂ (Handed cfg) ps xs) :
    Balanced cfg { l with
      original := rest
      retry := l.retry ++ targeted .retry ps
      deadLetter := l.deadLetter ++ targeted .deadLetter ps
      attempts := l.attempts ++ ps.map attemptOf } := by
  have hcopies : ∀ id, copies { l with
      original := rest
      retry := l.retry ++ targeted .retry ps
      deadLetter := l.deadLetter ++ targeted .deadLetter ps
      attempts := l.attempts ++ ps.map attemptOf } id = l.copies id := by
    intro id
    have hcount := targeted_count ps id
    rw [handed_ids handed] at hcount
    rw [copies_eq,copies_eq,split]
    simp only [held_append]
    omega
  have hsource : ∀ p ∈ ps, ∃ m ∈ l.original, Handed cfg p m := by
    intro p hp
    obtain ⟨m,hm,hh⟩ := handed_mem handed hp
    exact ⟨m,split ▸ List.mem_append_left rest hm,hh⟩
  have htarget : ∀ p ∈ ps, p.message.id ∈ l.sent ∧ p.message.retries = .value (l.moves p.message.id) ∧
      (p.target = .deadLetter ↔ l.moves p.message.id = cfg.messagesRetryCount) := by
    intro p hp
    obtain ⟨m,hm,hh⟩ := hsource p hp
    obtain ⟨hs,hr⟩ := h.original m hm
    rw [hh.id,hh.retries,hh.target,hr]
    exact ⟨hs,rfl,failedTarget_deadLetter hr (h.bounded m.id)⟩
  exact { h with
    single := fun id => hcopies id ▸ h.single id
    known := fun id hid => hcopies id ▸ h.known id hid
    kept := fun id hid hl => hcopies id ▸ h.kept id hid hl
    original := fun m hm => h.original m (split ▸ List.mem_append_right xs hm)
    retry := by
      intro m hm
      rcases List.mem_append.mp hm with hm | hm
      · exact h.retry m hm
      · obtain ⟨p,hp,ht,rfl⟩ := mem_targeted.mp hm
        obtain ⟨hs,hr,hd⟩ := htarget p hp
        obtain ⟨_,_,hh⟩ := hsource p hp
        have hne : l.moves p.message.id ≠ cfg.messagesRetryCount := by
          intro heq
          have := hd.mpr heq
          rw [ht] at this
          cases this
        have hlt : l.moves p.message.id < cfg.messagesRetryCount :=
          lt_of_le_of_ne (h.bounded p.message.id) hne
        exact .inl ⟨hs,hh.originalTopic,hr,hlt⟩
    dead := by
      intro m hm
      rcases List.mem_append.mp hm with hm | hm
      · exact h.dead m hm
      · obtain ⟨p,hp,ht,rfl⟩ := mem_targeted.mp hm
        obtain ⟨_,hr,hd⟩ := htarget p hp
        exact ⟨hr,hd.mp ht⟩
    attempts := by
      intro a ha
      rcases List.mem_append.mp ha with ha | ha
      · exact h.attempts a ha
      · obtain ⟨p,hp,rfl⟩ := List.mem_map.mp ha
        obtain ⟨_,hr,hd⟩ := htarget p hp
        change p.target = .deadLetter ↔ (getKafkaIntHeader p.message.retries).1 = _
        rw [hr,hd]
        exact Int.ofNat_inj.symm
    letters := by
      change (l.deadLetter ++ targeted .deadLetter ps).map Message.id =
        ((l.attempts ++ ps.map attemptOf).filter (fun a => a.target = .deadLetter)).map Attempt.id
      rw [List.map_append,List.filter_append,List.map_append,h.letters,letters_append] }

structure Returned (cfg : Config) (m : Message) (mv : Moved) : Prop where
  id : mv.message.id = m.id
  originalTopic : mv.message.originalTopic = m.originalTopic
  outcome : mv.topic = m.originalTopic ∧
      mv.message.retries = .value ((getKafkaIntHeader m.retries).1 + 1) ∨
    mv.topic = cfg.retryTopic ∧ mv.message.retries = .value (getKafkaIntHeader m.retries).1

theorem retryMessage_returned {now : ℕ} {mv : Moved} (h : retryMessage cfg now m = some mv) :
    Returned cfg m mv := by
  unfold retryMessage at h
  split at h
  · cases h
  · split at h
    · cases h
    · rename_i retries hr
      dsimp only at h
      cases h
      refine ⟨rfl,rfl,?_⟩
      rw [hr]
      cases isTimeToRetry now m with
      | true => exact .inl ⟨rfl,rfl⟩
      | false => exact .inr ⟨rfl,rfl⟩

theorem retryMessage_waiting {moves : ℕ} (h : Waiting cfg moves m) (now : ℕ) :
    ∃ mv, retryMessage cfg now m = some mv := by
  unfold retryMessage
  rw [h.originalTopic,if_neg cfg.topicId_named,h.retries]
  exact ⟨_,rfl⟩

abbrev Items := List (Message × Option Moved)

def back (topic : String) (items : Items) : List Message := addressed topic (items.filterMap Prod.snd)

variable {items : Items}

theorem mem_back {topic : String} :
    m ∈ back topic items ↔ ∃ i ∈ items, ∃ mv, i.2 = some mv ∧ mv.topic = topic ∧ mv.message = m := by
  simp only [back,addressed,List.mem_map,List.mem_filter,List.mem_filterMap,decide_eq_true_eq]
  constructor
  · rintro ⟨mv,⟨⟨i,hi,hmv⟩,ht⟩,rfl⟩
    exact ⟨i,hi,mv,hmv,ht,rfl⟩
  · rintro ⟨i,hi,mv,hmv,ht,rfl⟩
    exact ⟨mv,⟨⟨i,hi,hmv⟩,ht⟩,rfl⟩

def share (topic : String) (id : ℕ) (i : Message × Option Moved) : ℕ :=
  match i.2 with
  | none => 0
  | some mv => if mv.topic = topic ∧ mv.message.id = id then 1 else 0

theorem held_back_cons (topic : String) (i : Message × Option Moved) (items : Items) (id : ℕ) :
    held (back topic (i :: items)) id = share topic id i + held (back topic items) id := by
  obtain ⟨m,mv⟩ := i
  cases mv with
  | none => exact (Nat.zero_add _).symm
  | some mv =>
    change held (addressed topic (mv :: items.filterMap Prod.snd)) id = _
    rw [addressed,List.filter_cons,share]
    by_cases ht : mv.topic = topic
    · rw [if_pos (decide_eq_true ht),List.map_cons,held_cons]
      simp only [ht,true_and]
      exact Nat.add_comm _ _
    · rw [if_neg (by simpa using ht)]
      simp only [ht,false_and,if_false]
      exact (Nat.zero_add _).symm

def Faithful (cfg : Config) (items : Items) : Prop := ∀ i ∈ items, ∃ now, i.2 = retryMessage cfg now i.1

variable {i : Message × Option Moved}

section

variable (h : Faithful cfg items)

include h

theorem Faithful.returned
    (hi : i ∈ items) {mv : Moved} (hmv : i.2 = some mv) : Returned cfg i.1 mv := by
  obtain ⟨now,hnow⟩ := h i hi
  rw [hnow] at hmv
  exact retryMessage_returned hmv

theorem Faithful.share_le
    (hi : i ∈ items) (id : ℕ) :
    share cfg.topicId id i + share cfg.retryTopic id i ≤ if i.1.id = id then 1 else 0 := by
  unfold share
  cases hmv : i.2 with
  | none => exact Nat.zero_le _
  | some mv =>
    have hid := (h.returned hi hmv).id
    have hne := cfg.topicId_distinct
    dsimp only
    rw [hid]
    by_cases ht : mv.topic = cfg.topicId
    · simp only [ht,hne,true_and,false_and,if_false,Nat.add_zero,le_refl]
    · simp only [ht,false_and,if_false,Nat.zero_add]
      split <;> split <;> simp_all

theorem Faithful.share_eq
    (hi : i ∈ items) {moves id : ℕ} (hw : i.1.id = id → Waiting cfg moves i.1) :
    share cfg.topicId id i + share cfg.retryTopic id i = if i.1.id = id then 1 else 0 := by
  have hle := h.share_le hi id
  by_cases hid : i.1.id = id
  · rw [if_pos hid] at hle ⊢
    obtain ⟨now,hnow⟩ := h i hi
    obtain ⟨mv,hmv⟩ := retryMessage_waiting (hw hid) now
    rw [← hnow] at hmv
    have hr := h.returned hi hmv
    have hid' : mv.message.id = id := hr.id.trans hid
    have hone : share cfg.topicId id i = 1 ∨ share cfg.retryTopic id i = 1 := by
      unfold share
      rw [hmv]
      rcases hr.outcome with ⟨ht,_⟩ | ⟨ht,_⟩
      · exact .inl (if_pos ⟨ht.trans (hw hid).originalTopic,hid'⟩)
      · exact .inr (if_pos ⟨ht,hid'⟩)
    omega
  · rw [if_neg hid] at hle ⊢
    omega

theorem held_back (id : ℕ) :
    held (back cfg.topicId items) id + held (back cfg.retryTopic items) id ≤ held (items.map Prod.fst) id ∧
    ∀ moves, (∀ i ∈ items, i.1.id = id → Waiting cfg moves i.1) →
      held (back cfg.topicId items) id + held (back cfg.retryTopic items) id =
        held (items.map Prod.fst) id := by
  induction items with
  | nil => exact ⟨le_refl 0,fun _ _ => rfl⟩
  | cons i items ih =>
    obtain ⟨hle,heq⟩ := ih (fun j hj => h j (List.mem_cons_of_mem i hj))
    have hi := h.share_le List.mem_cons_self id
    rw [held_back_cons,held_back_cons,List.map_cons,held_cons]
    refine ⟨by omega,fun moves hw => ?_⟩
    have hrest := heq moves fun j hj => hw j (List.mem_cons_of_mem i hj)
    have hi := h.share_eq List.mem_cons_self (hw i List.mem_cons_self)
    omega

end

section giveBack

variable {items : Items} {rest : List Message}
  (h : Balanced cfg l) (split : l.retry = items.map Prod.fst ++ rest)

include h split

theorem Balanced.item_source
    {i : Message × Option Moved} (hi : i ∈ items) : i.1.id ∈ l.sent ∧ Waiting cfg (l.moves i.1.id) i.1 ∨
      i.1.id ∉ l.sent ∧ i.1.originalTopic ≠ cfg.topicId :=
  h.retry i.1 (split ▸ List.mem_append_left rest (List.mem_map_of_mem hi))

theorem Balanced.returned_original
    (hf : Faithful cfg items) {m : Message} (hm : m ∈ back cfg.topicId items) :
    m.id ∈ l.sent ∧ m.retries = .value (l.moves m.id + 1) ∧ l.moves m.id < cfg.messagesRetryCount := by
  obtain ⟨i,hi,mv,hmv,ht,rfl⟩ := mem_back.mp hm
  have hr := hf.returned hi hmv
  rw [hr.id]
  rcases hr.outcome with ⟨hto,hret⟩ | ⟨hto,_⟩
  · rcases h.item_source split hi with ⟨hs,hw⟩ | ⟨_,hother⟩
    · rw [hret,hw.retries]
      exact ⟨hs,rfl,hw.bounded⟩
    · exact absurd (hto.symm.trans ht) hother
  · exact absurd (ht.symm.trans hto) cfg.topicId_distinct

theorem Balanced.returned_retry
    (hf : Faithful cfg items) {m : Message} (hm : m ∈ back cfg.retryTopic items) :
    m.id ∈ l.sent ∧ Waiting cfg (l.moves m.id) m ∨ m.id ∉ l.sent ∧ m.originalTopic ≠ cfg.topicId := by
  obtain ⟨i,hi,mv,hmv,ht,rfl⟩ := mem_back.mp hm
  have hr := hf.returned hi hmv
  rw [hr.id]
  rcases h.item_source split hi with ⟨hs,hw⟩ | ⟨hs,hother⟩
  · rcases hr.outcome with ⟨hto,_⟩ | ⟨_,hret⟩
    · exact absurd (hw.originalTopic.symm.trans (hto.symm.trans ht)) cfg.topicId_distinct
    · rw [hw.retries] at hret
      exact .inl ⟨hs,hr.originalTopic.trans hw.originalTopic,hret,hw.bounded⟩
  · exact .inr ⟨hs,fun hto => hother (hr.originalTopic.symm.trans hto)⟩

theorem giveBack_balanced
    (hf : Faithful cfg items) :
    Balanced cfg { l with
      original := l.original ++ back cfg.topicId items
      retry := rest ++ back cfg.retryTopic items
      moved := l.moved ++ (back cfg.topicId items).map Message.id } := by
  set l' : Ledger := { l with
    original := l.original ++ back cfg.topicId items
    retry := rest ++ back cfg.retryTopic items
    moved := l.moved ++ (back cfg.topicId items).map Message.id } with hl'
  have hold : ∀ id, l.copies id = held l.original id + (held (items.map Prod.fst) id + held rest id) +
      held l.deadLetter id := fun id => by rw [copies_eq,split,held_append]
  have hnew : ∀ id, l'.copies id = held l.original id + held (back cfg.topicId items) id +
      (held rest id + held (back cfg.retryTopic items) id) + held l.deadLetter id := fun id => by
    rw [copies_eq,hl',held_append,held_append]
  have hcopies : ∀ id, l'.copies id ≤ l.copies id := by
    intro id
    have hle := (held_back hf id).1
    rw [hold,hnew]
    omega
  have hone : ∀ id, l'.copies id ≤ 1 := fun id => (hcopies id).trans (h.single id)
  have hmoves : ∀ id, l'.moves id = l.moves id + held (back cfg.topicId items) id := by
    intro id
    rw [moves,hl',List.count_append]
    rfl
  have hquiet : ∀ m : Message, m ∈ l.original ∨ m ∈ rest ∨ m ∈ l.deadLetter ∨ m ∈ back cfg.retryTopic items →
      l'.moves m.id = l.moves m.id := by
    intro m hm
    have hone := hone m.id
    rw [hnew] at hone
    rw [hmoves]
    rcases hm with hm | hm | hm | hm <;> have := held_pos hm <;> omega
  exact { h with
    single := hone
    known := fun id hid => Nat.le_zero.mp ((hcopies id).trans (h.known id hid).le)
    kept := by
      intro id hid hl
      have hw : ∀ i ∈ items, i.1.id = id → Waiting cfg (l.moves id) i.1 := by
        rintro i hi rfl
        rcases h.item_source split hi with ⟨_,hw⟩ | ⟨hn,_⟩
        · exact hw
        · exact absurd hid hn
      have heq := (held_back hf id).2 _ hw
      have hone := h.kept id hid hl
      rw [hold] at hone
      rw [hnew]
      omega
    moved := by
      intro id hid
      rcases List.mem_append.mp hid with hid | hid
      · exact h.moved id hid
      · obtain ⟨m,hm,rfl⟩ := List.mem_map.mp hid
        exact (h.returned_original split hf hm).1
    bounded := by
      intro id
      rw [hmoves]
      by_cases hmem : id ∈ (back cfg.topicId items).map Message.id
      · obtain ⟨m,hm,rfl⟩ := List.mem_map.mp hmem
        have hlt := (h.returned_original split hf hm).2.2
        have hone := hone m.id
        rw [hnew] at hone
        omega
      · rw [held,List.count_eq_zero.mpr hmem]
        exact h.bounded id
    original := by
      intro m hm
      rcases List.mem_append.mp hm with hm | hm
      · rw [hquiet m (.inl hm)]
        exact h.original m hm
      · obtain ⟨hs,hr,_⟩ := h.returned_original split hf hm
        refine ⟨hs,?_⟩
        have hpos := held_pos hm
        have hone := hone m.id
        rw [hnew] at hone
        have hcount : held (back cfg.topicId items) m.id = 1 := by omega
        rw [hr,hmoves,hcount]
        rfl
    retry := by
      intro m hm
      rcases List.mem_append.mp hm with hm | hm
      · rw [hquiet m (.inr (.inl hm))]
        exact h.retry m (split ▸ List.mem_append_right _ hm)
      · rw [hquiet m (.inr (.inr (.inr hm)))]
        exact h.returned_retry split hf hm
    dead := by
      intro m hm
      rw [hquiet m (.inr (.inr (.inl hm)))]
      exact h.dead m hm }

end giveBack

theorem step_balanced {l' : Ledger} (h : Balanced cfg l) (hs : Step cfg l l') : Balanced cfg l' := by
  cases hs with
  | send m fresh first => exact send_balanced h fresh first
  | foreign m fresh other => exact foreign_balanced h fresh other
  | load xs rest committed split => exact load_balanced h committed split
  | enter xs rest split => exact enter_balanced h split
  | handOff ps xs rest split handed => exact handOff_balanced h split handed
  | giveBack items rest split retried => exact giveBack_balanced h split retried

end Ledger

end Jitsu.Bulker
