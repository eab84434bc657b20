import Jitsu.Ingest.Batch

namespace Jitsu.Ingest

open Lib

def Handled.Placed (h : Handled) : Prop :=
  h.topics = [.destinations] ∧ h.noDestination = false ∨ h.topics = [.deadLetter] ∧ h.noDestination = false ∨
    h.topics = [] ∧ h.noDestination = true

structure Verdict where
  rError : Option RouterError
  handled : Handled
  error : Option String

def Verdict.add (l : Loop) (v : Verdict) : Loop :=
  ⟨v.rError,if v.error = none then l.okEvents + 1 else l.okEvents,l.errors ++ v.error.toList,
    l.handled ++ [v.handled]⟩

section Dedup

variable {clock : Clock} {sprint : Json → String} {gapMs : ℕ} {batch : List (Option Fields)}

theorem dedupLoop_eq_none {seen : List (EventKey × Int)} :
    dedupLoop clock sprint gapMs seen batch = none ↔ none ∈ batch := by
  induction batch generalizing seen with
  | nil => simp [dedupLoop]
  | cons e rest ih =>
    cases e with
    | none => simp [dedupLoop]
    | some ev =>
      simp only [dedupLoop,List.mem_cons,reduceCtorEq,false_or]
      split
      · rw [Option.map_eq_none_iff,ih]
      · split
        · exact ih
        · rw [Option.map_eq_none_iff,ih]

theorem dedupLoop_sublist {seen : List (EventKey × Int)} {kept : List (Option Fields)}
    (h : dedupLoop clock sprint gapMs seen batch = some kept) : kept.Sublist batch := by
  induction batch generalizing seen kept with
  | nil =>
    cases h
    exact List.Sublist.refl _
  | cons e rest ih =>
    cases e with
    | none => cases h
    | some ev =>
      simp only [dedupLoop] at h
      split at h
      · obtain ⟨less,hless,rfl⟩ := Option.map_eq_some_iff.mp h
        exact (ih hless).cons_cons _
      · split at h
        · exact (ih h).cons _
        · obtain ⟨less,hless,rfl⟩ := Option.map_eq_some_iff.mp h
          exact (ih hless).cons_cons _

theorem deduplicateBatch_sublist {kept : List (Option Fields)}
    (h : deduplicateBatch clock sprint gapMs batch = some kept) : kept.Sublist batch := by
  unfold deduplicateBatch at h
  split at h
  · cases h
    exact List.Sublist.refl _
  · exact dedupLoop_sublist h

theorem deduplicateBatch_null {kept : List (Option Fields)}
    (h : deduplicateBatch clock sprint gapMs batch = some kept) (hnull : none ∈ batch) : none ∈ kept := by
  unfold deduplicateBatch at h
  split at h
  · cases h
    exact hnull
  · rw [dedupLoop_eq_none.mpr hnull] at h
    cases h

theorem deduplicateBatch_total (h : none ∉ batch) :
    ∃ kept, deduplicateBatch clock sprint gapMs batch = some kept := by
  unfold deduplicateBatch
  split
  · exact ⟨batch,rfl⟩
  · exact Option.ne_none_iff_exists'.mp (fun hnone => h (dedupLoop_eq_none.mp hnone))

end Dedup

namespace Batch

variable {β : Type} (b : Batch β)

def NeedsDeadLetter (i : ℕ) (ev : Fields) : Prop :=
  (b.built i ev).err ≠ none ∨
    b.stream.asynchronousDestinations ≠ [] ∧ (throttles b.stream (b.draws i) ∨ (b.draws i).destinations ≠ none)

def verdict (i : ℕ) (ev : Fields) : Verdict :=
  let messageId := messageIdOf (b.draws i) ev
  match (b.sent i ev).rError with
  | none => ⟨none,⟨i,messageId,[.destinations],false,false⟩,none⟩
  | some rError =>
    if rError.errorType = .noDst then
      ⟨some rError,⟨i,messageId,[],true,false⟩,some (reported messageId rError)⟩
    else if rError.errorType = .throttled ∧ ¬b.config.errorOnThrottle then
      ⟨some rError,⟨i,messageId,b.deadLettered i,false,true⟩,none⟩
    else ⟨some rError,⟨i,messageId,b.deadLettered i,false,false⟩,some (reported messageId rError)⟩

inductive SentCase (i : ℕ) (ev : Fields) : Sent → Prop where
  | rejected (err : String) (needs : b.NeedsDeadLetter i ev) :
      SentCase i ev ⟨[],[],some (responseError .event err),false⟩
  | noDestination (spare : ¬b.NeedsDeadLetter i ev) :
      SentCase i ev ⟨[],[],some (responseError .noDst b.stream.id),false⟩
  | throttled (needs : b.NeedsDeadLetter i ev) :
      SentCase i ev ⟨[],[],some (responseError .throttled throttledDescription),false⟩
  | refused (err : String) (needs : b.NeedsDeadLetter i ev) :
      SentCase i ev ⟨b.stream.asynchronousDestinations,b.stream.synchronousDestinations,
        some (maskedResponseError .producer (b.draws i).errorId err),false⟩
  | produced (spare : ¬b.NeedsDeadLetter i ev) (found : b.stream.asynchronousDestinations ≠ []) :
      SentCase i ev ⟨b.stream.asynchronousDestinations,b.stream.synchronousDestinations,none,true⟩

variable {b} {i : ℕ} {ev : Fields}

theorem sentCase (b : Batch β) (i : ℕ) (ev : Fields) : SentCase b i ev (b.sent i ev) := by
  unfold sent
  cases herr : (b.built i ev).err with
  | some err => exact .rejected err (.inl (by simp [herr]))
  | none =>
    dsimp only
    split
    · next hasync => exact .noDestination (by simp [NeedsDeadLetter,herr,hasync])
    next hasync =>
    unfold sendToRotor
    split
    · next hthrottle => exact .throttled (.inr ⟨hasync,.inl hthrottle⟩)
    next hthrottle =>
    cases hdest : (b.draws i).destinations with
    | some err => exact .refused err (.inr ⟨hasync,.inr (by simp [hdest])⟩)
    | none => exact .produced (by simp [NeedsDeadLetter,herr,hthrottle,hdest]) hasync

theorem handleEvent_eq (l : Loop) : b.handleEvent i ev l = some (Verdict.add l (b.verdict i ev)) := by
  have hcase := sentCase b i ev
  unfold handleEvent verdict
  generalize b.sent i ev = sent at hcase
  cases hcase with
  | rejected err _ => simp [responseError,Verdict.add]
  | noDestination _ => simp [responseError,Verdict.add]
  | throttled _ =>
    by_cases herror : b.config.errorOnThrottle <;> simp [responseError,Verdict.add,herror]
  | refused err _ => simp [maskedResponseError,Verdict.add]
  | produced _ hasync => simp [Verdict.add,hasync]

theorem deadLettered_placed {messageId : String} {silently : Bool} :
    (Handled.mk i messageId (b.deadLettered i) false silently).Placed ↔ (b.draws i).deadLetter = none := by
  unfold Handled.Placed deadLettered
  by_cases h : (b.draws i).deadLetter = none <;> simp [h]

theorem verdict_placed :
    (b.verdict i ev).handled.Placed ↔ (b.NeedsDeadLetter i ev → (b.draws i).deadLetter = none) := by
  have hcase := sentCase b i ev
  unfold verdict
  generalize b.sent i ev = sent at hcase
  cases hcase with
  | rejected err hneeds => simp [responseError,deadLettered_placed,hneeds]
  | noDestination hspare => simp [responseError,Handled.Placed,hspare]
  | throttled hneeds =>
    by_cases herror : b.config.errorOnThrottle <;>
      simp [responseError,deadLettered_placed,hneeds,herror]
  | refused err hneeds => simp [maskedResponseError,deadLettered_placed,hneeds]
  | produced hspare _ => simp [Handled.Placed,hspare]

theorem verdict_index : (b.verdict i ev).handled.index = i := by
  unfold verdict
  dsimp only
  split
  · rfl
  · split
    · rfl
    · split <;> rfl

theorem verdict_delivered (h : (b.verdict i ev).error = none) :
    .destinations ∈ (b.verdict i ev).handled.topics ∨ (b.verdict i ev).handled.silentlyThrottled := by
  unfold verdict at h ⊢
  dsimp only at h ⊢
  split
  · exact .inl List.mem_cons_self
  · next rError heq =>
    rw [heq] at h
    dsimp only at h
    split
    · next hdst =>
      rw [if_pos hdst] at h
      cases h
    · next hdst =>
      split
      · exact .inr rfl
      · next hsilent =>
        rw [if_neg hdst,if_neg hsilent] at h
        cases h

def verdicts (b : Batch β) : ℕ → List Fields → List Verdict
  | _, [] => []
  | i, ev :: rest => b.verdict i ev :: verdicts b (i + 1) rest

theorem verdicts_length (i : ℕ) (events : List Fields) : (b.verdicts i events).length = events.length := by
  induction events generalizing i with
  | nil => rfl
  | cons ev rest ih => rw [verdicts,List.length_cons,ih,List.length_cons]

theorem verdicts_get (i : ℕ) (events : List Fields) (n : ℕ) :
    (b.verdicts i events)[n]? = events[n]?.map (b.verdict (i + n)) := by
  induction events generalizing i n with
  | nil => rfl
  | cons ev rest ih =>
    cases n with
    | zero => rfl
    | succ n =>
      rw [verdicts,List.getElem?_cons_succ,List.getElem?_cons_succ,ih,show i + 1 + n = i + (n + 1) by omega]

theorem loop_eq (i : ℕ) (events : List Fields) (l : Loop) :
    b.loop i (events.map some) l = ((b.verdicts i events).foldl Verdict.add l,true) := by
  induction events generalizing i l with
  | nil => rfl
  | cons ev rest ih =>
    rw [List.map_cons,loop,handleEvent_eq]
    exact ih (i + 1) _

theorem loop_null {events : List (Option Fields)} (h : none ∈ events) (i : ℕ) (l : Loop) :
    (b.loop i events l).2 = false := by
  induction events generalizing i l with
  | nil => cases h
  | cons e rest ih =>
    cases e with
    | none => rfl
    | some ev =>
      rw [loop,handleEvent_eq]
      exact ih (by simpa using h) (i + 1) _

end Batch

theorem add_all (l : Loop) (vs : List Verdict) :
    (vs.foldl Verdict.add l).handled = l.handled ++ vs.map Verdict.handled ∧
    (vs.foldl Verdict.add l).errors = l.errors ++ vs.flatMap (fun v => v.error.toList) ∧
    (vs.foldl Verdict.add l).okEvents + (vs.foldl Verdict.add l).errors.length =
      l.okEvents + l.errors.length + vs.length := by
  induction vs generalizing l with
  | nil => simp
  | cons v vs ih =>
    obtain ⟨hhandled,herrors,hcount⟩ := ih (Verdict.add l v)
    refine ⟨?_,?_,?_⟩
    · rw [List.foldl_cons,hhandled]
      simp [Verdict.add]
    · rw [List.foldl_cons,herrors]
      simp [Verdict.add]
    · rw [List.foldl_cons,hcount]
      cases herror : v.error <;> simp [Verdict.add,herror] <;> omega

namespace Batch

variable {β : Type} {b : Batch β}

def Accounts (b : Batch β) : Prop :=
  ∃ kept r, b.kept = some kept ∧ b.handler = .responded r ∧ r.handled.length = kept.length ∧
    (∀ i < kept.length, ∃ ev l h, kept[i]? = some (some ev) ∧ r.handled[i]? = some h ∧ h.index = i ∧
      b.handleEvent i ev ⟨none,0,[],[]⟩ = some l ∧ l.handled = [h] ∧ h.Placed) ∧
    r.okEvents + r.errors.length = kept.length ∧ kept.length + r.deduplicatedEvents = r.receivedEvents ∧
    (r.ok → ∀ h ∈ r.handled, .destinations ∈ h.topics ∨ h.silentlyThrottled)

def DeadLettersAccepted (b : Batch β) : Prop :=
  ∀ kept, b.kept = some kept → ∀ i ev, kept[i]? = some (some ev) → b.NeedsDeadLetter i ev →
    (b.draws i).deadLetter = none

theorem kept_sublist {kept : List (Option Fields)} (h : b.kept = some kept) : kept.Sublist b.corrected := by
  unfold Batch.kept at h
  split at h
  · exact deduplicateBatch_sublist h
  · cases h
    exact List.Sublist.refl _

theorem null_corrected : none ∈ b.corrected ↔ none ∈ b.payload.batch := by
  simp [corrected]

theorem kept_null {kept : List (Option Fields)} (h : b.kept = some kept) :
    none ∈ kept ↔ none ∈ b.payload.batch := by
  rw [← null_corrected]
  refine ⟨fun hnull => (kept_sublist h).subset hnull,fun hnull => ?_⟩
  unfold Batch.kept at h
  split at h
  · exact deduplicateBatch_null h hnull
  · cases h
    exact hnull

theorem kept_total (h : none ∉ b.payload.batch) : ∃ kept, b.kept = some kept := by
  rw [← null_corrected] at h
  unfold Batch.kept
  split
  · exact deduplicateBatch_total h
  · exact ⟨b.corrected,rfl⟩

theorem all_some {events : List (Option Fields)} (h : none ∉ events) : ∃ evs :
    List Fields, events = evs.map some := by
  induction events with
  | nil => exact ⟨[],rfl⟩
  | cons e rest ih =>
    obtain ⟨evs,hevs⟩ := ih (fun hrest => h (List.mem_cons_of_mem _ hrest))
    cases e with
    | none => exact absurd List.mem_cons_self h
    | some ev => exact ⟨ev :: evs,by rw [hevs,List.map_cons]⟩

theorem handler_panics (h : none ∈ b.payload.batch) : ∃ handled, b.handler = .panicked handled := by
  unfold handler
  cases hkept : b.kept with
  | none => exact ⟨[],rfl⟩
  | some kept =>
    have hloop := loop_null (b := b) ((kept_null hkept).mpr h) 0 ⟨none,0,[],[]⟩
    dsimp only
    split
    · exact ⟨_,rfl⟩
    · next heq =>
      rw [heq] at hloop
      cases hloop

theorem handler_responds {evs : List Fields} (h : b.kept = some (evs.map some)) :
    ∃ r, b.handler = .responded r ∧ r.handled = (b.verdicts 0 evs).map Verdict.handled ∧
      r.okEvents + r.errors.length = evs.length ∧ evs.length + r.deduplicatedEvents = r.receivedEvents ∧
      (r.ok → ∀ v ∈ b.verdicts 0 evs, v.error = none) := by
  obtain ⟨hhandled,herrors,hcount⟩ := add_all ⟨none,0,[],[]⟩ (b.verdicts 0 evs)
  have hlength : evs.length ≤ b.payload.batch.length := by
    have hle := (kept_sublist h).length_le
    simpa [corrected] using hle
  unfold handler
  rw [h]
  dsimp only
  rw [loop_eq]
  refine ⟨_,rfl,?_,?_,?_,?_⟩
  · simpa using hhandled
  · simpa [verdicts_length] using hcount
  · simp only [corrected,List.length_map]
    omega
  · intro hok v hv
    simp only [Bool.and_eq_true,decide_eq_true_eq] at hok
    have hnone : v.error.toList = [] := by
      have hflat := herrors.symm.trans hok.2
      rw [List.nil_append,List.flatMap_eq_nil_iff] at hflat
      exact hflat v hv
    simpa using hnone

theorem Accounts.not_null (h : b.Accounts) : none ∉ b.payload.batch := by
  obtain ⟨_,r,_,hr,_⟩ := h
  intro hnull
  obtain ⟨handled,hpanic⟩ := handler_panics hnull
  rw [hpanic] at hr
  cases hr

theorem Accounts.accepted (h : b.Accounts) : b.DeadLettersAccepted := by
  obtain ⟨kept,r,hkept,_,_,hplaced,_⟩ := h
  intro kept' hkept' i ev hev
  rw [hkept,Option.some.injEq] at hkept'
  subst hkept'
  obtain ⟨hi,_⟩ := List.getElem?_eq_some_iff.mp hev
  obtain ⟨ev',l,h,hev',_,_,hl,hone,hh⟩ := hplaced i hi
  rw [hev,Option.some.injEq,Option.some.injEq] at hev'
  subst hev'
  rw [handleEvent_eq,Option.some.injEq] at hl
  subst hl
  have hhandled : (b.verdict i ev).handled = h := by simpa [Verdict.add] using hone
  exact verdict_placed.mp (hhandled ▸ hh)

theorem batch_accounts_iff (b : Batch β) : b.Accounts ↔ none ∉ b.payload.batch ∧ b.DeadLettersAccepted := by
  constructor
  · exact fun h => ⟨h.not_null,h.accepted⟩
  · rintro ⟨hnull,haccepted⟩
    obtain ⟨kept,hkept⟩ := kept_total hnull
    obtain ⟨evs,rfl⟩ := all_some (fun h => hnull ((kept_null hkept).mp h))
    obtain ⟨r,hr,hhandled,hcount,hdedup,hok⟩ := handler_responds hkept
    refine ⟨_,r,hkept,hr,?_,?_,?_,?_,?_⟩
    · rw [hhandled,List.length_map,verdicts_length,List.length_map]
    · intro i hi
      rw [List.length_map] at hi
      have hev : evs[i]? = some evs[i] := List.getElem?_eq_getElem hi
      have hkeptAt : (evs.map some)[i]? = some (some evs[i]) := by rw [List.getElem?_map,hev,Option.map_some]
      refine ⟨evs[i],_,(b.verdict i evs[i]).handled,hkeptAt,?_,?_,handleEvent_eq _,?_,?_⟩
      · rw [hhandled,List.getElem?_map,verdicts_get,hev,Nat.zero_add]
        rfl
      · exact verdict_index
      · simp [Verdict.add]
      · exact verdict_placed.mpr (haccepted _ hkept i _ hkeptAt)
    · rw [List.length_map]
      exact hcount
    · rw [List.length_map]
      exact hdedup
    · intro h handled hmem
      rw [hhandled] at hmem
      obtain ⟨v,hv,rfl⟩ := List.mem_map.mp hmem
      obtain ⟨n,hn⟩ := List.mem_iff_getElem?.mp hv
      rw [verdicts_get] at hn
      obtain ⟨ev,_,rfl⟩ := Option.map_eq_some_iff.mp hn
      exact verdict_delivered (hok h _ hv)

end Batch

def pageEvent (messageId : String) : Fields := [("type",.str "page"),("messageId",.str messageId)]

def sampleStream (throttle : ℕ) : Stream where
  id := "site"
  workspaceId := "workspace"
  name := "Site"
  strict := false
  captureHeaders := false
  throttle := throttle
  deduplicateWindowMs := 0
  asynchronousDestinations := ["connection"]
  synchronousDestinations := []

def sampleRequest : Request where
  header := []
  unique := List.nodup_nil
  host := "ingest.example"
  urlScheme := "https"
  urlHost := "ingest.example"
  queryWriteKey := ""
  clientIp := "10.0.0.1"

def sampleBatch (throttle : ℕ) (deadLetter : Option String) (events : List (Option Fields)) : Batch Unit where
  codec := ⟨fun _ => .ok (),fun _ => 0⟩
  clock := ⟨fun _ => none,fun _ => "2024-01-01T00:00:00.000Z"⟩
  sprint := fun _ => ""
  config := ⟨1000000,false⟩
  request := sampleRequest
  loc := ⟨"","ingest.example","site",.browser⟩
  stream := sampleStream throttle
  payload := ⟨events,"",none,"",""⟩
  receivedAt := 0
  draws := fun _ => ⟨"uuid","error",0,"2024-01-01T00:00:00.000Z",none,deadLetter⟩

def withNull : Batch Unit := sampleBatch 0 none [some (pageEvent "first"),none,some (pageEvent "third")]

def throttledUnrecorded : Batch Unit := sampleBatch 100 (some "queue is full") [some (pageEvent "first")]

theorem batch_events_unaccounted :
    withNull.handler = .panicked [⟨0,"first",[.destinations],false,false⟩] ∧ ¬withNull.Accounts ∧
    throttledUnrecorded.handler = .responded ⟨true,1,1,0,[],[⟨0,"first",[],false,true⟩]⟩ ∧
    ¬throttledUnrecorded.Accounts := by
  refine ⟨by decide +kernel,fun h => h.not_null ?_,by decide +kernel,fun h => ?_⟩
  · simp [withNull,sampleBatch]
  · have haccepted := h.accepted _ rfl 0 (pageEvent "first") rfl (.inr ⟨by decide,.inl (by decide)⟩)
    cases haccepted

end Jitsu.Ingest
