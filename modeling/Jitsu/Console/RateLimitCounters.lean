import Jitsu.Console.RateLimit
import Jitsu.Lib.Splitting

namespace Jitsu.Console

open Lib

def AuthClass.text : AuthClass → String
  | .bearer => "bearer"
  | .session => "session"
  | .ip => "ip"

def bucketKey (opts : RateLimitOpts) : String :=
  opts.authClass.text ++ ":" ++ opts.principal ++ ":" ++ opts.bucket

structure RateLimitCounter where
  count : ℤ
  expiresAt : ℤ
deriving DecidableEq

abbrev Counters := String × ℤ → Option RateLimitCounter

def graceMs : ℤ := 5 * 60000

def expiresAt (windowMs windowStart : ℤ) : ℤ := windowStart + windowMs + graceMs

def upserted (row : Option RateLimitCounter) (expiresAt : ℤ) : RateLimitCounter :=
  match row with
  | none => ⟨1,expiresAt⟩
  | some found => {found with count := found.count + 1}

structure CheckRow where
  currentCount : ℤ
  prevCount : ℤ
deriving DecidableEq

def checkRow (table : Counters) (opts : RateLimitOpts) (now : ℤ) : CheckRow :=
  let windowStart := windowStartOf opts.windowMs now
  { currentCount :=
      (upserted (table (bucketKey opts,windowStart)) (expiresAt opts.windowMs windowStart)).count
    prevCount := ((table (bucketKey opts,windowStart - opts.windowMs)).map RateLimitCounter.count).getD 0 }

def check (table : Counters) (opts : RateLimitOpts) (now : ℤ) : Counters × RateLimitResult :=
  let windowStart := windowStartOf opts.windowMs now
  let place := (bucketKey opts,windowStart)
  let row := checkRow table opts now
  (Function.update table place (some (upserted (table place) (expiresAt opts.windowMs windowStart))),
    computeResult opts row.currentCount row.prevCount now)

def cleanup (table : Counters) (now : ℤ) : Counters :=
  fun place => (table place).filter (fun row => ¬ row.expiresAt < now)

inductive LimiterCall where
  | check (opts : RateLimitOpts) (now : ℤ)
  | cleanup (now : ℤ)
deriving DecidableEq

namespace LimiterCall

def time : LimiterCall → ℤ
  | check _ now => now
  | cleanup now => now

def perform (table : Counters) : LimiterCall → Counters
  | check opts now => (Console.check table opts now).1
  | cleanup now => Console.cleanup table now

def hits (key : String) (windowStart : ℤ) : LimiterCall → Bool
  | check opts now => bucketKey opts = key ∧ windowStartOf opts.windowMs now = windowStart
  | cleanup _ => false

def ofPrincipal (opts : RateLimitOpts) (low high : ℤ) : LimiterCall → Bool
  | check other now => (other.authClass = opts.authClass ∧ other.principal = opts.principal ∧
      other.bucket = opts.bucket) ∧ low ≤ now ∧ now < high
  | cleanup _ => false

def cleans (limit : ℤ) : LimiterCall → Bool
  | check _ _ => false
  | cleanup now => limit < now

end LimiterCall

open LimiterCall

def table (calls : List LimiterCall) : Counters := calls.foldl perform (fun _ => none)

structure SameLimit (opts other : RateLimitOpts) : Prop where
  authClass : other.authClass = opts.authClass
  principal : other.principal = opts.principal
  bucket : other.bucket = opts.bucket
  windowMs : other.windowMs = opts.windowMs

structure History (calls : List LimiterCall) (opts : RateLimitOpts) : Prop where
  ordered : calls.Pairwise (fun a b => a.time ≤ b.time)
  window : 0 < opts.windowMs
  separate : ∀ other now, .check other now ∈ calls → bucketKey other = bucketKey opts → SameLimit opts other

variable {other : RateLimitOpts}

theorem bucketKey_inj {opts : RateLimitOpts} (ho : ':' ∉ opts.bucket.toList)
    (hb : ':' ∉ other.bucket.toList) (h : bucketKey other = bucketKey opts) :
    other.authClass = opts.authClass ∧ other.principal = opts.principal ∧ other.bucket = opts.bucket := by
  have hclass : ∀ c : AuthClass, ':' ∉ c.text.toList := by
    intro c
    cases c <;> decide
  have htext : Function.Injective AuthClass.text := by
    intro c d
    cases c <;> cases d <;> decide
  have hlist := congrArg String.toList h
  simp only [bucketKey,String.toList_append,List.append_assoc] at hlist
  obtain ⟨hc,hrest⟩ := cut_unique (hclass _) (hclass _) hlist
  obtain ⟨hp,hbucket⟩ := cut_last_unique hb ho hrest
  exact ⟨htext (String.toList_inj.mp hc),String.toList_inj.mp hp,String.toList_inj.mp hbucket⟩

structure Regular (calls : List LimiterCall) : Prop where
  ordered : calls.Pairwise (fun a b => a.time ≤ b.time)
  buckets : ∀ opts now, .check opts now ∈ calls → ':' ∉ opts.bucket.toList ∧ 0 < opts.windowMs
  windows : ∀ opts now other time, .check opts now ∈ calls → .check other time ∈ calls →
    other.bucket = opts.bucket → other.windowMs = opts.windowMs

theorem Regular.history {calls : List LimiterCall} (h : Regular calls) {opts : RateLimitOpts} {now : ℤ}
    (hc : .check opts now ∈ calls) : History calls opts where
  ordered := h.ordered
  window := (h.buckets opts now hc).2
  separate other time hmem hkey := by
    obtain ⟨hclass,hprincipal,hbucket⟩ :=
      bucketKey_inj (h.buckets opts now hc).1 (h.buckets other time hmem).1 hkey
    exact ⟨hclass,hprincipal,hbucket,h.windows opts now other time hc hmem hbucket⟩

def stored (calls : List LimiterCall) (opts : RateLimitOpts) (windowStart : ℤ) : Option RateLimitCounter :=
  let count := calls.countP (hits (bucketKey opts) windowStart)
  let limit := expiresAt opts.windowMs windowStart
  if count = 0 ∨ calls.any (cleans limit) then none else some ⟨count,limit⟩

variable {calls : List LimiterCall} {opts : RateLimitOpts} {call : LimiterCall}

theorem History.of_append (h : History (calls ++ [call]) opts) : History calls opts where
  ordered := (List.pairwise_append.mp h.ordered).1
  window := h.window
  separate other now hmem := h.separate other now (List.mem_append_left _ hmem)

theorem History.last (h : History (calls ++ [call]) opts) :
    ∀ earlier ∈ calls, earlier.time ≤ call.time :=
  fun earlier he => (List.pairwise_append.mp h.ordered).2.2 earlier he call List.mem_cons_self

theorem not_cleaned {limit now : ℤ} (hn : ∀ earlier ∈ calls, earlier.time ≤ now) (hl : now ≤ limit) :
    calls.any (cleans limit) = false := by
  rw [List.any_eq_false]
  intro call hcall
  cases call with
  | check => exact Bool.false_ne_true
  | cleanup time =>
    have htime : time ≤ now := hn _ hcall
    simpa [cleans] using htime.trans hl

theorem table_append (call : LimiterCall) : table (calls ++ [call]) = perform (table calls) call := by
  simp [table]

theorem stored_cleanup (windowStart now : ℤ) : stored (calls ++ [LimiterCall.cleanup now]) opts windowStart =
    (stored calls opts windowStart).filter (fun row => ¬ row.expiresAt < now) := by
  have hcount : (calls ++ [LimiterCall.cleanup now]).countP (hits (bucketKey opts) windowStart) =
      calls.countP (hits (bucketKey opts) windowStart) := by
    rw [List.countP_append]
    rfl
  have hany : (calls ++ [LimiterCall.cleanup now]).any (cleans (expiresAt opts.windowMs windowStart)) =
      (calls.any (cleans (expiresAt opts.windowMs windowStart)) ||
        decide (expiresAt opts.windowMs windowStart < now)) := by
    simp [cleans]
  unfold stored
  dsimp only
  rw [hcount,hany]
  by_cases hgone : calls.countP (hits (bucketKey opts) windowStart) = 0 ∨
      calls.any (cleans (expiresAt opts.windowMs windowStart)) = true
  · rw [if_pos hgone,if_pos (hgone.imp_right fun h => by rw [h,Bool.true_or])]
    rfl
  · rw [if_neg hgone]
    by_cases hexpired : expiresAt opts.windowMs windowStart < now
    · rw [if_pos (.inr (by simp [hexpired])),Option.filter_some]
      simp [hexpired]
    · rw [if_neg (fun h => hgone (h.imp_right fun h => by simpa [hexpired] using h)),Option.filter_some]
      simp [hexpired]

variable {windowStart : ℤ}

theorem stored_miss {now : ℤ}
    (hmiss : ¬ hits (bucketKey opts) windowStart (.check other now)) :
    stored (calls ++ [LimiterCall.check other now]) opts windowStart = stored calls opts windowStart := by
  have hcount : (calls ++ [LimiterCall.check other now]).countP (hits (bucketKey opts) windowStart) =
      calls.countP (hits (bucketKey opts) windowStart) := by
    rw [List.countP_append,List.countP_singleton,if_neg hmiss,add_zero]
  have hany : (calls ++ [LimiterCall.check other now]).any (cleans (expiresAt opts.windowMs windowStart)) =
      calls.any (cleans (expiresAt opts.windowMs windowStart)) := by
    simp [cleans]
  unfold stored
  dsimp only
  rw [hcount,hany]

theorem stored_hit {now : ℤ}
    (hhit : hits (bucketKey opts) windowStart (.check other now))
    (hkept : calls.any (cleans (expiresAt opts.windowMs windowStart)) = false) :
    stored (calls ++ [LimiterCall.check other now]) opts windowStart =
      some (upserted (stored calls opts windowStart) (expiresAt opts.windowMs windowStart)) := by
  have hcount : (calls ++ [LimiterCall.check other now]).countP (hits (bucketKey opts) windowStart) =
      calls.countP (hits (bucketKey opts) windowStart) + 1 := by
    rw [List.countP_append,List.countP_singleton,if_pos hhit]
  have hany : (calls ++ [LimiterCall.check other now]).any
    (cleans (expiresAt opts.windowMs windowStart)) = false := by
    simp only [List.any_append,hkept]
    rfl
  unfold stored
  dsimp only
  rw [hcount,hany,hkept,if_neg (by simp)]
  by_cases hzero : calls.countP (hits (bucketKey opts) windowStart) = 0
  · rw [if_pos (.inl hzero),hzero]
    rfl
  · rw [if_neg (by simpa using hzero)]
    simp [upserted]

theorem check_window {now : ℤ} (hW : 0 < opts.windowMs)
    (hsame : SameLimit opts other) (hw : windowStartOf other.windowMs now = windowStart) :
    windowStart ≤ now ∧ now < windowStart + opts.windowMs := by
  rw [hsame.windowMs] at hw
  exact hw ▸ windowStartOf_le hW now

theorem table_eq_stored (h : History calls opts) (windowStart : ℤ) :
    table calls (bucketKey opts,windowStart) = stored calls opts windowStart := by
  induction calls using List.reverseRecOn with
  | nil => rfl
  | append_singleton calls call ih =>
    specialize ih h.of_append
    rw [table_append]
    cases call with
    | cleanup now =>
      rw [stored_cleanup,← ih]
      rfl
    | check other now =>
      by_cases hhit : hits (bucketKey opts) windowStart (.check other now)
      · have hplace := of_decide_eq_true hhit
        have hsame := h.separate other now (List.mem_append_right _ List.mem_cons_self) hplace.1
        have hnow := check_window h.window hsame hplace.2
        have hgrace : 0 ≤ graceMs := by decide
        have hkept : calls.any (cleans (expiresAt opts.windowMs windowStart)) = false :=
          not_cleaned h.last (by unfold expiresAt; show now ≤ _; linarith)
        rw [stored_hit hhit hkept,← ih]
        unfold perform Console.check
        dsimp only
        rw [hplace.1,hplace.2,hsame.windowMs,Function.update_self]
      · have hplace : (bucketKey opts,windowStart) ≠
            (bucketKey other,windowStartOf other.windowMs now) := by
          intro heq
          obtain ⟨hkey,hstart⟩ := Prod.mk.inj heq
          exact hhit (decide_eq_true ⟨hkey.symm,hstart.symm⟩)
        rw [stored_miss hhit,← ih]
        exact Function.update_of_ne hplace _ _

theorem hits_eq_ofPrincipal (h : History calls opts) (k : ℤ) (hmem : call ∈ calls) :
    hits (bucketKey opts) (k * opts.windowMs) call =
      ofPrincipal opts (k * opts.windowMs) (k * opts.windowMs + opts.windowMs) call := by
  cases call with
  | cleanup => rfl
  | check other now =>
    unfold hits ofPrincipal
    rw [decide_eq_decide]
    constructor
    · rintro ⟨hkey,hstart⟩
      have hsame := h.separate other now hmem hkey
      exact ⟨⟨hsame.authClass,hsame.principal,hsame.bucket⟩,check_window h.window hsame hstart⟩
    · rintro ⟨⟨hclass,hprincipal,hbucket⟩,hlow,hhigh⟩
      have hkey : bucketKey other = bucketKey opts := by
        unfold bucketKey
        rw [hclass,hprincipal,hbucket]
      have hsame := h.separate other now hmem hkey
      refine ⟨hkey,?_⟩
      rw [windowStartOf,hsame.windowMs,ediv_eq_of_window h.window hlow hhigh]

theorem countP_hits (h : History calls opts) (k : ℤ) :
    calls.countP (hits (bucketKey opts) (k * opts.windowMs)) =
      calls.countP (ofPrincipal opts (k * opts.windowMs) (k * opts.windowMs + opts.windowMs)) :=
  List.countP_congr fun call hmem => by rw [hits_eq_ofPrincipal h k hmem]

def currentCalls (calls : List LimiterCall) (opts : RateLimitOpts) (now : ℤ) : ℕ :=
  let windowStart := windowStartOf opts.windowMs now
  calls.countP (ofPrincipal opts windowStart (windowStart + opts.windowMs))

def previousCalls (calls : List LimiterCall) (opts : RateLimitOpts) (now : ℤ) : ℕ :=
  let windowStart := windowStartOf opts.windowMs now
  calls.countP (ofPrincipal opts (windowStart - opts.windowMs) windowStart)

structure TrueCounts (calls : List LimiterCall) (opts : RateLimitOpts) (now : ℤ) : Prop where
  current : (checkRow (table calls) opts now).currentCount = currentCalls (calls ++ [.check opts now]) opts now
  previous : (checkRow (table calls) opts now).prevCount = previousCalls (calls ++ [.check opts now]) opts now
  decision : (check (table calls) opts now).2.allowed = true ↔
    (previousCalls (calls ++ [.check opts now]) opts now : ℤ) *
        (opts.windowMs - (now - windowStartOf opts.windowMs now)) +
      currentCalls (calls ++ [.check opts now]) opts now * opts.windowMs ≤ opts.limit * opts.windowMs

theorem stored_count {row : RateLimitCounter}
    (h : stored calls opts windowStart = some row) :
    row.count = calls.countP (hits (bucketKey opts) windowStart) := by
  unfold stored at h
  dsimp only at h
  split at h
  · cases h
  · cases h
    rfl

section

variable {now : ℤ} (h : History (calls ++ [.check opts now]) opts)

include h

theorem current_true : (checkRow (table calls) opts now).currentCount =
    currentCalls (calls ++ [.check opts now]) opts now := by
  have hwindow := windowStartOf_le h.window now
  have hhit : hits (bucketKey opts) (windowStartOf opts.windowMs now)
    (.check opts now) := decide_eq_true ⟨rfl,rfl⟩
  have hgrace : 0 ≤ graceMs := by decide
  have hkept : calls.any (cleans (expiresAt opts.windowMs (windowStartOf opts.windowMs now))) = false :=
    not_cleaned h.last (by unfold expiresAt; show now ≤ _; linarith)
  have hrow := stored_count (stored_hit hhit hkept)
  unfold checkRow currentCalls
  dsimp only
  rw [table_eq_stored h.of_append,hrow,windowStartOf,countP_hits h (now / opts.windowMs)]

theorem previousCalls_append :
    previousCalls (calls ++ [.check opts now]) opts now = previousCalls calls opts now := by
  have hnow : ofPrincipal opts (windowStartOf opts.windowMs now - opts.windowMs)
      (windowStartOf opts.windowMs now) (.check opts now) = false := by
    refine decide_eq_false fun hin => ?_
    exact absurd hin.2.2 (not_lt.mpr (windowStartOf_le h.window now).1)
  unfold previousCalls
  dsimp only
  rw [List.countP_append,List.countP_singleton,hnow,if_neg Bool.false_ne_true,add_zero]

theorem previous_stored : stored calls opts (windowStartOf opts.windowMs now - opts.windowMs) =
    if previousCalls calls opts now = 0 ∨ calls.any
    (cleans (windowStartOf opts.windowMs now + graceMs)) then none
    else some ⟨previousCalls calls opts now,windowStartOf opts.windowMs now + graceMs⟩ := by
  have hstart : windowStartOf opts.windowMs now - opts.windowMs =
    (now / opts.windowMs - 1) * opts.windowMs := by
    unfold windowStartOf
    ring
  have hcount : calls.countP (hits (bucketKey opts) (windowStartOf opts.windowMs now - opts.windowMs)) =
      previousCalls calls opts now := by
    unfold previousCalls
    dsimp only
    rw [hstart,countP_hits h.of_append,← hstart,sub_add_cancel]
  have hexpires : expiresAt opts.windowMs (windowStartOf opts.windowMs now - opts.windowMs) =
      windowStartOf opts.windowMs now + graceMs := by
    unfold expiresAt
    ring
  unfold stored
  dsimp only
  rw [hcount,hexpires]

theorem previous_true_iff : (checkRow (table calls) opts now).prevCount =
    previousCalls (calls ++ [.check opts now]) opts now ↔
      previousCalls calls opts now = 0 ∨
        ∀ time, .cleanup time ∈ calls → time ≤ windowStartOf opts.windowMs now + graceMs := by
  have hclean : calls.any (cleans (windowStartOf opts.windowMs now + graceMs)) = true ↔
      ∃ time, .cleanup time ∈ calls ∧ windowStartOf opts.windowMs now + graceMs < time := by
    rw [List.any_eq_true]
    constructor
    · rintro ⟨call,hmem,hc⟩
      cases call with
      | check => cases hc
      | cleanup time => exact ⟨time,hmem,of_decide_eq_true hc⟩
    · rintro ⟨time,hmem,hlate⟩
      exact ⟨_,hmem,decide_eq_true hlate⟩
  unfold checkRow
  dsimp only
  rw [table_eq_stored h.of_append,previous_stored h,previousCalls_append h]
  by_cases hquiet : previousCalls calls opts now = 0
  · rw [if_pos (.inl hquiet),hquiet]
    exact iff_of_true rfl (.inl rfl)
  · by_cases hcleaned : calls.any (cleans (windowStartOf opts.windowMs now + graceMs)) = true
    · rw [if_pos (.inr hcleaned)]
      obtain ⟨time,hmem,hlate⟩ := hclean.mp hcleaned
      refine iff_of_false (fun heq => hquiet (Int.natCast_eq_zero.mp heq.symm)) ?_
      rintro (hzero | hearly)
      · exact hquiet hzero
      · exact absurd hlate (not_lt.mpr (hearly time hmem))
    · rw [if_neg (not_or.mpr ⟨hquiet,hcleaned⟩)]
      refine iff_of_true rfl (.inr fun time hmem => not_lt.mp fun hlate => ?_)
      exact hcleaned (hclean.mpr ⟨time,hmem,hlate⟩)

end

theorem limiter_counts_true_iff (calls : List LimiterCall) (opts : RateLimitOpts) (now : ℤ)
    (h : History (calls ++ [.check opts now]) opts) :
    (TrueCounts calls opts now ↔ previousCalls calls opts now = 0 ∨
      ∀ time, .cleanup time ∈ calls → time ≤ windowStartOf opts.windowMs now + graceMs) ∧
    (opts.windowMs ≤ graceMs → TrueCounts calls opts now) := by
  have hiff : TrueCounts calls opts now ↔ previousCalls calls opts now = 0 ∨
      ∀ time, .cleanup time ∈ calls → time ≤ windowStartOf opts.windowMs now + graceMs := by
    rw [← previous_true_iff h]
    refine ⟨TrueCounts.previous,fun hprevious => ⟨current_true h,hprevious,?_⟩⟩
    rw [← hprevious,← current_true h]
    exact allowed_iff
  refine ⟨hiff,fun hshort => hiff.mpr (.inr fun time hmem => ?_)⟩
  have hlast : time ≤ now := h.last (.cleanup time) hmem
  linarith [(windowStartOf_le h.window now).2]

def register (ip : String) : RateLimitOpts := ⟨.ip,ip,"dcr",200,60 * 60000⟩

theorem registrations_regular {calls : List LimiterCall}
    (ho : calls.Pairwise (fun a b => a.time ≤ b.time))
    (hr : ∀ opts now, .check opts now ∈ calls → ∃ ip, opts = register ip) : Regular calls where
  ordered := ho
  buckets opts now h := by
    obtain ⟨ip,rfl⟩ := hr opts now h
    have hbucket : ':' ∉ "dcr".toList := by decide
    have hwindow : (0 : ℤ) < 60 * 60000 := by decide
    exact ⟨hbucket,hwindow⟩
  windows opts now other time h h' _ := by
    obtain ⟨ip,rfl⟩ := hr opts now h
    obtain ⟨ip',rfl⟩ := hr other time h'
    rfl

def hourly (cleaned : ℤ) : List LimiterCall :=
  [.check (register "10.0.0.1") 0,.check (register "10.0.0.2") 1000,.cleanup cleaned]

theorem hourly_regular {cleaned : ℤ} (h : 1000 ≤ cleaned) :
    Regular (hourly cleaned ++ [.check (register "10.0.0.1") (cleaned + 1)]) := by
  refine registrations_regular ?_ fun opts now hmem => ?_
  · simp only [hourly,List.cons_append,List.nil_append,List.pairwise_cons,List.forall_mem_cons,time]
    refine ⟨⟨by decide,by linarith,by linarith,nofun⟩,⟨h,by linarith,nofun⟩,⟨by linarith,nofun⟩,nofun,
      List.Pairwise.nil⟩
  · simp only [hourly,List.cons_append,List.nil_append,List.mem_cons,LimiterCall.check.injEq,
      List.not_mem_nil,or_false,reduceCtorEq,false_or] at hmem
    rcases hmem with ⟨rfl,-⟩ | ⟨rfl,-⟩ | ⟨rfl,-⟩
    · exact ⟨_,rfl⟩
    · exact ⟨_,rfl⟩
    · exact ⟨_,rfl⟩

theorem limiter_counts_true_hourly : TrueCounts (hourly 3900000) (register "10.0.0.1") 3900001 := by
  have hhistory : History (hourly 3900000 ++ [.check (register "10.0.0.1") 3900001]) (register "10.0.0.1") :=
    (hourly_regular (by decide)).history (List.mem_append_right _ List.mem_cons_self)
  refine (limiter_counts_true_iff _ _ _ hhistory).1.mpr (.inr fun time h => ?_)
  have htime : time = 3900000 := by simpa [hourly] using h
  rw [htime]
  decide

theorem hourly_window_forgotten : Regular (hourly 3900001 ++ [.check (register "10.0.0.1") 3900002]) ∧
    checkRow (table (hourly 3900001)) (register "10.0.0.1") 3900002 = ⟨1,0⟩ ∧
    previousCalls (hourly 3900001 ++ [.check (register "10.0.0.1") 3900002])
    (register "10.0.0.1") 3900002 = 1 ∧
    ¬ TrueCounts (hourly 3900001) (register "10.0.0.1") 3900002 := by
  have hrow : checkRow (table (hourly 3900001)) (register "10.0.0.1") 3900002 = ⟨1,0⟩ := by decide
  have hcalls : previousCalls (hourly 3900001 ++ [.check (register "10.0.0.1") 3900002])
      (register "10.0.0.1") 3900002 = 1 := by decide
  refine ⟨hourly_regular (by decide),hrow,hcalls,fun h => ?_⟩
  have hprevious := h.previous
  rw [hrow,hcalls] at hprevious
  exact absurd hprevious (by decide)

end Jitsu.Console
