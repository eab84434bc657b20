import Mathlib

namespace Jitsu.Console

inductive AuthClass where
  | bearer
  | session
  | ip
deriving DecidableEq

structure RateLimitOpts where
  authClass : AuthClass
  principal : String
  bucket : String
  limit : ℤ
  windowMs : ℤ
deriving DecidableEq

structure RateLimitResult where
  allowed : Bool
  bucket : String
  limit : ℤ
  remaining : ℤ
  resetAt : ℤ
  retryAfterSec : ℤ

def ceilDiv (a b : ℤ) : ℤ := ⌈(a : ℚ) / b⌉

theorem ceilDiv_le {a b c : ℤ} (hb : 0 < b) : ceilDiv a b ≤ c ↔ a ≤ c * b := by
  have hq : (0 : ℚ) < b := by exact_mod_cast hb
  unfold ceilDiv
  rw [Int.ceil_le,div_le_iff₀ hq]
  exact_mod_cast Iff.rfl

def windowStartOf (windowMs now : ℤ) : ℤ := now / windowMs * windowMs

def weightedTimesW (windowMs current previous now : ℤ) : ℤ :=
  previous * (windowMs - (now - windowStartOf windowMs now)) + current * windowMs

def computeRetryAfterSec (opts : RateLimitOpts) (current previous now : ℤ) : ℤ :=
  let W := opts.windowMs
  let limit := opts.limit
  let elapsed := now - windowStartOf W now
  let num := W * (previous + current + 1 - limit)
  let targetElapsed := if num ≤ 0 then 0 else ceilDiv num previous
  if (previous > 0 ∧ limit - current - 1 ≥ 0) ∧ targetElapsed ≤ W then
    max 1 (ceilDiv (max 0 (targetElapsed - elapsed)) 1000)
  else
    let elapsedNew :=
      if current > 0 ∧ limit > 1 then
        let num := W * (current + 1 - limit)
        if num ≤ 0 then 0 else ceilDiv num current
      else if current ≥ limit then W
      else 0
    max 1 (ceilDiv (W - elapsed + elapsedNew) 1000)

def computeResult (opts : RateLimitOpts) (current previous now : ℤ) : RateLimitResult :=
  let W := opts.windowMs
  let weighted := weightedTimesW W current previous now
  let allowed := decide (weighted ≤ opts.limit * W)
  let retryAfterSec := if allowed then 0 else computeRetryAfterSec opts current previous now
  { allowed
    bucket := opts.bucket
    limit := opts.limit
    remaining := max 0 ((opts.limit * W - weighted) / W)
    resetAt := if allowed then windowStartOf W now + W else now + retryAfterSec * 1000
    retryAfterSec }

def countsAt (windowMs current previous now later : ℤ) : ℤ × ℤ :=
  if later / windowMs = now / windowMs then (current + 1,previous)
  else if later / windowMs = now / windowMs + 1 then (1,current)
  else (1,0)

def retry (opts : RateLimitOpts) (current previous now later : ℤ) : RateLimitResult :=
  let counts := countsAt opts.windowMs current previous now later
  computeResult opts counts.1 counts.2 later

section

variable {opts : RateLimitOpts} {current previous now : ℤ}

theorem allowed_iff : (computeResult opts current previous now).allowed = true ↔
    weightedTimesW opts.windowMs current previous now ≤ opts.limit * opts.windowMs :=
  decide_eq_true_iff

theorem windowStartOf_le {W : ℤ} (hW : 0 < W) (now : ℤ) :
    windowStartOf W now ≤ now ∧ now < windowStartOf W now + W := by
  have hmod := Int.emod_add_mul_ediv now W
  have hnonneg := Int.emod_nonneg now hW.ne'
  have hlt := Int.emod_lt_of_pos now hW
  unfold windowStartOf
  constructor <;> linarith [mul_comm W (now / W)]

theorem ediv_eq_of_window {W t k : ℤ} (hW : 0 < W) (hl : k * W ≤ t) (hr : t < k * W + W) : t / W = k := by
  apply le_antisymm
  · exact Int.lt_add_one_iff.mp (Int.ediv_lt_of_lt_mul hW (by linarith))
  · exact Int.le_ediv_of_mul_le hW hl

inductive Later (W now later : ℤ) : Prop
  | same : later / W = now / W → windowStartOf W later = windowStartOf W now →
      later < windowStartOf W now + W → Later W now later
  | next : later / W = now / W + 1 → windowStartOf W later = windowStartOf W now + W →
      windowStartOf W now + W ≤ later → later < windowStartOf W now + 2 * W → Later W now later
  | after : now / W + 1 < later / W → windowStartOf W now + 2 * W ≤ later → Later W now later

variable {later : ℤ}

theorem later_cases {W : ℤ} (hW : 0 < W) (hl : now ≤ later) : Later W now later := by
  have hnow := windowStartOf_le hW now
  by_cases hsame : later < now / W * W + W
  · have hdiv : later / W = now / W := ediv_eq_of_window hW (hnow.1.trans hl) hsame
    exact .same hdiv (by rw [windowStartOf,hdiv,windowStartOf]) hsame
  · by_cases hnext : later < now / W * W + 2 * W
    · have hdiv : later / W = now / W + 1 := ediv_eq_of_window hW (by linarith) (by linarith)
      refine .next hdiv ?_ (not_lt.mp hsame) hnext
      rw [windowStartOf,hdiv,windowStartOf]
      ring
    · refine .after ?_ (not_lt.mp hnext)
      exact Int.add_one_le_iff.mp (Int.le_ediv_of_mul_le hW (by linarith))

def targetElapsed (opts : RateLimitOpts) (current previous : ℤ) : ℤ :=
  ceilDiv (opts.windowMs * (previous + current + 1 - opts.limit)) previous

def elapsedNew (opts : RateLimitOpts) (current : ℤ) : ℤ :=
  if opts.limit > 1 then ceilDiv (opts.windowMs * (current + 1 - opts.limit)) current else opts.windowMs

theorem retry_same (h : later / opts.windowMs = now / opts.windowMs) :
    retry opts current previous now later = computeResult opts (current + 1) previous later := by
  unfold retry countsAt
  rw [if_pos h]

theorem retry_next (h : later / opts.windowMs = now / opts.windowMs + 1) :
    retry opts current previous now later = computeResult opts 1 current later := by
  unfold retry countsAt
  rw [if_neg (by omega),if_pos h]

theorem retry_after (h : now / opts.windowMs + 1 < later / opts.windowMs) :
    retry opts current previous now later = computeResult opts 1 0 later := by
  unfold retry countsAt
  rw [if_neg (by omega),if_neg (by omega)]

section

variable (hW : 0 < opts.windowMs) (hl : 1 ≤ opts.limit)

include hW hl

variable {later : ℤ}

theorem retry_after_allowed (h : now / opts.windowMs + 1 < later / opts.windowMs) :
    (retry opts current previous now later).allowed = true := by
  rw [retry_after h,allowed_iff,weightedTimesW]
  nlinarith

theorem retry_with_room (hc : 1 ≤ current) (hp : 0 < previous) (hroom : current + 1 ≤ opts.limit)
    (hlater : now ≤ later) : (retry opts current previous now later).allowed = true ↔
      targetElapsed opts current previous ≤ later - windowStartOf opts.windowMs now := by
  unfold targetElapsed
  rw [ceilDiv_le hp]
  have hfit : opts.windowMs * (previous + current + 1 - opts.limit) ≤ opts.windowMs * previous :=
    mul_le_mul_of_nonneg_left (by linarith) hW.le
  cases later_cases hW hlater with
  | same hdiv hstart _ =>
    rw [retry_same hdiv,allowed_iff,weightedTimesW,hstart]
    constructor <;> intro h <;> linarith
  | next hdiv hstart hge _ =>
    rw [retry_next hdiv,allowed_iff,weightedTimesW,hstart]
    have hdecayed : 0 ≤ current * (later - (windowStartOf opts.windowMs now + opts.windowMs)) :=
      mul_nonneg (by linarith) (by linarith)
    have hpassed : opts.windowMs * previous ≤ (later - windowStartOf opts.windowMs now) * previous :=
      mul_le_mul_of_nonneg_right (by linarith) hp.le
    exact iff_of_true (by linarith) (by linarith)
  | after hdiv hge =>
    have hpassed : opts.windowMs * previous ≤ (later - windowStartOf opts.windowMs now) * previous :=
      mul_le_mul_of_nonneg_right (by linarith) hp.le
    exact iff_of_true (retry_after_allowed hW hl hdiv) (by linarith)

theorem elapsedNew_bounds (hfull : opts.limit ≤ current) :
    0 < elapsedNew opts current ∧ elapsedNew opts current ≤ opts.windowMs := by
  have hcurrent : 0 < current := by linarith
  unfold elapsedNew
  split
  · refine ⟨?_,?_⟩
    · rw [← not_le,ceilDiv_le hcurrent]
      have hnum : 0 < opts.windowMs * (current + 1 - opts.limit) := mul_pos hW (by linarith)
      linarith
    · rw [ceilDiv_le hcurrent]
      exact mul_le_mul_of_nonneg_left (by linarith) hW.le
  · exact ⟨hW,le_rfl⟩

theorem retry_without_room (hp : 0 ≤ previous) (hfull : opts.limit ≤ current)
    (hlater : now ≤ later) : (retry opts current previous now later).allowed = true ↔
      opts.windowMs + elapsedNew opts current ≤ later - windowStartOf opts.windowMs now := by
  have hcurrent : 0 < current := by linarith
  have hbounds := elapsedNew_bounds hW hl hfull
  cases later_cases hW hlater with
  | same hdiv hstart hlt =>
    rw [retry_same hdiv,allowed_iff,weightedTimesW,hstart]
    have hprevious : 0 ≤ previous * (opts.windowMs - (later - windowStartOf opts.windowMs now)) :=
      mul_nonneg hp (by linarith)
    have hover : opts.limit * opts.windowMs ≤ current * opts.windowMs := mul_le_mul_of_nonneg_right hfull hW.le
    exact iff_of_false (by linarith) (by linarith)
  | next hdiv hstart hge hlt =>
    rw [retry_next hdiv,allowed_iff,weightedTimesW,hstart]
    unfold elapsedNew
    split
    · rw [add_comm opts.windowMs (ceilDiv _ _),← le_sub_iff_add_le (b := opts.windowMs),ceilDiv_le hcurrent]
      constructor <;> intro h <;> linarith
    · have hone : opts.limit = 1 := by linarith
      have hcarried : 0 < current *
        (opts.windowMs - (later - (windowStartOf opts.windowMs now + opts.windowMs))) :=
        mul_pos hcurrent (by linarith)
      rw [hone]
      exact iff_of_false (by linarith) (by linarith)
  | after hdiv hge => exact iff_of_true (retry_after_allowed hW hl hdiv) (by linarith)

theorem denied_retry_threshold (hc : 1 ≤ current) (hp : 0 ≤ previous)
    (hd : (computeResult opts current previous now).allowed = false) : ∃ threshold,
      computeRetryAfterSec opts current previous now =
        max 1 (ceilDiv (threshold - (now - windowStartOf opts.windowMs now)) 1000) ∧
      ∀ later, now ≤ later → ((retry opts current previous now later).allowed = true ↔
        threshold ≤ later - windowStartOf opts.windowMs now) := by
  rw [← Bool.not_eq_true,allowed_iff,weightedTimesW,not_le] at hd
  have hwindow := windowStartOf_le hW now
  have hdecayed : 0 ≤ previous * (now - windowStartOf opts.windowMs now) := mul_nonneg hp (by linarith)
  by_cases hroom : previous > 0 ∧ opts.limit - current - 1 ≥ 0
  · have hnum : 0 < opts.windowMs * (previous + current + 1 - opts.limit) := by
      have hover : (opts.limit - current) * opts.windowMs < previous * opts.windowMs := by linarith
      exact mul_pos hW (by linarith [lt_of_mul_lt_mul_right hover hW.le])
    have hfit : targetElapsed opts current previous ≤ opts.windowMs := by
      rw [targetElapsed,ceilDiv_le hroom.1]
      exact mul_le_mul_of_nonneg_left (by linarith [hroom.2]) hW.le
    have hallowed : ∀ later, now ≤ later → ((retry opts current previous now later).allowed = true ↔
        targetElapsed opts current previous ≤ later - windowStartOf opts.windowMs now) :=
      fun later => retry_with_room hW hl hc hroom.1 (by linarith [hroom.2])
    have hahead : now - windowStartOf opts.windowMs now < targetElapsed opts current previous := by
      rw [← not_le,← hallowed now le_rfl,retry_same rfl,allowed_iff,weightedTimesW]
      linarith
    refine ⟨targetElapsed opts current previous,?_,hallowed⟩
    unfold computeRetryAfterSec
    dsimp only
    rw [if_neg (not_le.mpr hnum),if_pos ⟨hroom,hfit⟩]
    exact congrArg (fun wait => max 1 (ceilDiv wait 1000)) (max_eq_right (sub_pos.mpr hahead).le)
  · have hfull : opts.limit ≤ current := by
      by_cases hzero : previous = 0
      · rw [hzero] at hd
        exact (lt_of_mul_lt_mul_right (by linarith) hW.le).le
      · have hpos : previous > 0 := lt_of_le_of_ne hp (Ne.symm hzero)
        have := not_and.mp hroom hpos
        omega
    refine ⟨opts.windowMs + elapsedNew opts current,?_,fun later => retry_without_room hW hl hp hfull⟩
    have hnum : 0 < opts.windowMs * (current + 1 - opts.limit) := mul_pos hW (by linarith)
    unfold computeRetryAfterSec elapsedNew
    dsimp only
    rw [if_neg (fun h => hroom h.1),if_neg (not_le.mpr hnum),if_pos (c := current ≥ opts.limit) hfull,
      add_sub_right_comm opts.windowMs]
    by_cases hone : opts.limit > 1
    · rw [if_pos ⟨by linarith,hone⟩,if_pos hone]
    · rw [if_neg (fun h => hone h.2),if_neg hone]

end

theorem computeResult_denied (hd : (computeResult opts current previous now).allowed = false) :
    (computeResult opts current previous now).retryAfterSec = computeRetryAfterSec opts current previous now ∧
    (computeResult opts current previous now).resetAt =
      now + computeRetryAfterSec opts current previous now * 1000 := by
  have hnot : ¬ decide (weightedTimesW opts.windowMs current previous now ≤
      opts.limit * opts.windowMs) = true := Bool.eq_false_iff.mp hd
  unfold computeResult
  dsimp only
  rw [if_neg hnot,if_neg hnot]
  exact ⟨rfl,rfl⟩

theorem retry_after_sufficient_and_earliest (opts : RateLimitOpts) (current previous now : ℤ)
    (hW : 1 ≤ opts.windowMs) (hl : 1 ≤ opts.limit) (hc : 1 ≤ current) (hp : 0 ≤ previous)
    (hd : (computeResult opts current previous now).allowed = false) :
    (retry opts current previous now
      (now + (computeResult opts current previous now).retryAfterSec * 1000)).allowed = true ∧
    (∀ sec, 1 ≤ sec → sec < (computeResult opts current previous now).retryAfterSec →
      (retry opts current previous now (now + sec * 1000)).allowed = false) ∧
    (computeResult opts current previous now).resetAt =
      now + (computeResult opts current previous now).retryAfterSec * 1000 := by
  obtain ⟨hretry,hreset⟩ := computeResult_denied hd
  obtain ⟨threshold,hsec,hallowed⟩ := denied_retry_threshold hW hl hc hp hd
  have hwhole : ∀ sec, 0 ≤ sec → ((retry opts current previous now (now + sec * 1000)).allowed = true ↔
      ceilDiv (threshold - (now - windowStartOf opts.windowMs now)) 1000 ≤ sec) := by
    intro sec hs
    rw [hallowed _ (by linarith),ceilDiv_le (by decide)]
    constructor <;> intro h <;> linarith
  rw [hretry]
  refine ⟨?_,fun sec hs hlt => ?_,hreset⟩
  · rw [hsec,hwhole _ (le_trans (by decide) (le_max_left _ _))]
    exact le_max_right _ _
  · rw [← Bool.not_eq_true,hwhole sec (by linarith),not_le]
    rw [hsec] at hlt
    exact (lt_max_iff.mp hlt).resolve_left (not_lt.mpr hs)

def tight : RateLimitOpts := ⟨.bearer,"p","GET",2,60000⟩

theorem retry_after_tight : (computeResult tight 12 0 0).allowed = false ∧
    (retry tight 12 0 0 (0 + (computeResult tight 12 0 0).retryAfterSec * 1000)).allowed = true := by
  have hd : (computeResult tight 12 0 0).allowed = false := by decide
  exact ⟨hd,(retry_after_sufficient_and_earliest tight 12 0 0 (by decide) (by decide) (by decide) (by decide)
    hd).1⟩

end

end Jitsu.Console
