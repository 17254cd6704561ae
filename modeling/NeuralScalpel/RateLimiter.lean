/-
The rate limiter of the proxy.

A token bucket for each key, kept in two dictionaries, of the tokens and of the
times of the last refill.  A key that is seen for the first time gets a full
bucket.

* `consume_spec` — a call is a call to the bucket of its key, and leaves the
  others alone;
* `entriesOf_run` — so in any run the calls of a key are answered as its bucket
  alone would answer them;
* `consume_limits` — the tokens stay in bounds, every window of time is bounded,
  and keys do not influence each other.
-/
import NeuralScalpel.Dict
import NeuralScalpel.Runs
import NeuralScalpel.TokenBucket
import Mathlib.Algebra.Order.Ring.Rat

namespace Proxy

open TokenBucket

structure RateLimiter (K : Type) where
  capacity : K
  refillRate : K
  tokens : Dict String K
  lastRefill : Dict String K

variable {K : Type} [CommRing K] [LinearOrder K]

namespace RateLimiter

def init (capacity refillRate : K) : RateLimiter K := ⟨capacity, refillRate, .empty, .empty⟩

/-- Take `tokens` at the time `now`, if there are as many. -/
def consume (l : RateLimiter K) (key : String) (now : K) (tokens : K := 1) :
    Bool × RateLimiter K :=
  let l := if (l.tokens.get? key).isSome then l
    else { l with
      tokens := l.tokens.set key l.capacity
      lastRefill := l.lastRefill.set key now }
  let elapsed := now - (l.lastRefill.get? key).getD now
  let refilled := min l.capacity ((l.tokens.get? key).getD l.capacity + elapsed * l.refillRate)
  if tokens ≤ refilled then
    (true, { l with
      tokens := l.tokens.set key (refilled - tokens)
      lastRefill := l.lastRefill.set key now })
  else
    (false, { l with
      tokens := l.tokens.set key refilled
      lastRefill := l.lastRefill.set key now })

end RateLimiter

/-! ### Runs -/

/-- A call with its answer. -/
structure Answered (K : Type) where
  key : String
  now : K
  answer : Bool
  deriving DecidableEq

/-- The limiter and the calls answered so far. -/
structure LimiterHistory (K : Type) where
  limiter : RateLimiter K
  log : List (Answered K)

namespace LimiterHistory

def start (capacity refillRate : K) : LimiterHistory K := ⟨.init capacity refillRate, []⟩

/-- A call, by its key and its time. -/
def perform (h : LimiterHistory K) (call : String × K) : LimiterHistory K :=
  let outcome := h.limiter.consume call.1 call.2
  ⟨outcome.2, h.log ++ [⟨call.1, call.2, outcome.1⟩]⟩

end LimiterHistory

/-- The times of the calls of a key. -/
def timesOf (key : String) (calls : List (String × K)) : List K :=
  (calls.filter fun call => call.1 = key).map Prod.snd

/-- The times and answers of the calls of a key. -/
def entriesOf (key : String) (log : List (Answered K)) : List (K × Bool) :=
  (log.filter fun e => e.key = key).map fun e => (e.now, e.answer)

/-- The answers to the calls of a key. -/
def answersOf (key : String) (log : List (Answered K)) : List Bool :=
  (entriesOf key log).map Prod.snd

/-- How many calls of a key succeed from `s` to `t`. -/
def successes (key : String) (s t : K) (log : List (Answered K)) : ℕ :=
  log.countP fun e => e.key = key ∧ e.answer ∧ s ≤ e.now ∧ e.now ≤ t

/-! ### A key is a bucket -/

namespace RateLimiter

/-- The bucket of a key. -/
def bucket? (l : RateLimiter K) (key : String) : Option (Bucket K) :=
  (l.tokens.get? key).bind fun tokens => (l.lastRefill.get? key).map fun last => ⟨tokens, last⟩

/-- The two dictionaries have the same keys. -/
def Paired (l : RateLimiter K) : Prop :=
  ∀ key, (l.tokens.get? key).isSome = (l.lastRefill.get? key).isSome

omit [CommRing K] [LinearOrder K] in
theorem bucket?_set (l : RateLimiter K) (key key' : String) (tokens last : K) :
    ({ l with
        tokens := l.tokens.set key tokens
        lastRefill := l.lastRefill.set key last } : RateLimiter K).bucket? key' =
      if key' = key then some ⟨tokens, last⟩ else l.bucket? key' := by
  simp only [bucket?, Dict.get?_set]
  by_cases h : key' = key <;> simp [h]

omit [CommRing K] [LinearOrder K] in
theorem Paired.set {l : RateLimiter K} (h : l.Paired) (key : String) (tokens last : K) :
    ({ l with
        tokens := l.tokens.set key tokens
        lastRefill := l.lastRefill.set key last } : RateLimiter K).Paired := by
  intro key'
  simp only [Dict.get?_set]
  by_cases hkey : key' = key
  · simp [hkey]
  · simpa [hkey] using h key'

omit [CommRing K] [LinearOrder K] in
theorem paired_init (capacity refillRate : K) : (init capacity refillRate).Paired := fun _ => rfl

omit [CommRing K] [LinearOrder K] in
/-- A key seen for the first time gets a full bucket, so every key has one then. -/
theorem exists_seen {l : RateLimiter K} (h : l.Paired) (key : String) (now : K) :
    ∃ l' : RateLimiter K, (if (l.tokens.get? key).isSome then l else { l with
        tokens := l.tokens.set key l.capacity
        lastRefill := l.lastRefill.set key now }) = l' ∧ l'.Paired ∧
      l'.capacity = l.capacity ∧ l'.refillRate = l.refillRate ∧
      ∃ b : Bucket K, l'.tokens.get? key = some b.tokens ∧
        l'.lastRefill.get? key = some b.lastRefill ∧
        (l.bucket? key).getD ⟨l.capacity, now⟩ = b ∧
        ∀ key', key' ≠ key → l'.bucket? key' = l.bucket? key' := by
  have hkey := h key
  rcases htokens : l.tokens.get? key with _ | tokens
  · refine ⟨_, rfl, h.set key l.capacity now, rfl, rfl, ⟨l.capacity, now⟩, ?_, ?_, ?_,
      fun key' hne => ?_⟩
    · simp
    · simp
    · simp [bucket?, htokens]
    · simp [bucket?_set, hne]
  · rw [htokens] at hkey
    obtain ⟨last, hlast⟩ := Option.isSome_iff_exists.mp hkey.symm
    refine ⟨l, rfl, h, rfl, rfl, ⟨tokens, last⟩, htokens, hlast, ?_, fun _ _ => rfl⟩
    simp [bucket?, htokens, hlast]

/-- The refilled bucket of the key, after a call; the others are as they were. -/
theorem consume_spec {l : RateLimiter K} (h : l.Paired) (key : String) (now cost : K) :
    (l.consume key now cost).1 =
        (take l.capacity l.refillRate cost (l.bucket? key) now).1 ∧
      (∀ key', (l.consume key now cost).2.bucket? key' =
        if key' = key then some (take l.capacity l.refillRate cost (l.bucket? key) now).2
        else l.bucket? key') ∧
      (l.consume key now cost).2.Paired ∧
      (l.consume key now cost).2.capacity = l.capacity ∧
      (l.consume key now cost).2.refillRate = l.refillRate := by
  obtain ⟨l', hl', hpaired, hcapacity, hrate, b, htokens, hlast, hb, hothers⟩ :=
    exists_seen h key now
  have hrefilled : min l'.capacity ((l'.tokens.get? key).getD l'.capacity +
      (now - (l'.lastRefill.get? key).getD now) * l'.refillRate) =
        refilled l.capacity l.refillRate b now := by
    rw [htokens, hlast, hcapacity, hrate]
    rfl
  have hset : ∀ tokens key', ({ l' with
        tokens := l'.tokens.set key tokens
        lastRefill := l'.lastRefill.set key now } : RateLimiter K).bucket? key' =
      if key' = key then some ⟨tokens, now⟩ else l.bucket? key' := by
    intro tokens key'
    rw [bucket?_set]
    by_cases hkey : key' = key
    · rw [if_pos hkey, if_pos hkey]
    · rw [if_neg hkey, if_neg hkey, hothers key' hkey]
  simp only [consume, take, hl', hrefilled, hb]
  by_cases hcost : cost ≤ refilled l.capacity l.refillRate b now
  · simp only [if_pos hcost]
    exact ⟨trivial, hset _, hpaired.set key _ now, hcapacity, hrate⟩
  · simp only [if_neg hcost]
    exact ⟨trivial, hset _, hpaired.set key _ now, hcapacity, hrate⟩

end RateLimiter

/-! ### What every run keeps -/

section Runs

variable {capacity rate : K}

/-- The limiter keeps its rates and the two dictionaries in step. -/
structure RateLimiter.Kept (capacity rate : K) (l : RateLimiter K) : Prop where
  paired : l.Paired
  capacity : l.capacity = capacity
  rate : l.refillRate = rate

omit [CommRing K] [LinearOrder K] in
theorem kept_init : (RateLimiter.init capacity rate).Kept capacity rate :=
  ⟨RateLimiter.paired_init capacity rate, rfl, rfl⟩

theorem kept_consume {l : RateLimiter K} (h : l.Kept capacity rate) (key : String) (now : K) :
    (l.consume key now).2.Kept capacity rate := by
  obtain ⟨_, _, hpaired, hcapacity, hrate⟩ := RateLimiter.consume_spec h.paired key now 1
  exact ⟨hpaired, hcapacity.trans h.capacity, hrate.trans h.rate⟩

/-- The calls of a key are answered as by its bucket alone. -/
theorem entriesOf_run (key : String) : ∀ {calls : List (String × K)} {h : LimiterHistory K},
    h.limiter.Kept capacity rate →
    entriesOf key (Runs.run LimiterHistory.perform h calls).log = entriesOf key h.log ++
      trace capacity rate 1 (h.limiter.bucket? key) (timesOf key calls) := by
  intro calls
  induction calls with
  | nil => exact fun _ => (List.append_nil _).symm
  | cons call calls ih =>
    intro h hkept
    obtain ⟨hanswer, hbucket, _⟩ := RateLimiter.consume_spec hkept.paired call.1 call.2 1
    rw [hkept.capacity, hkept.rate] at hanswer hbucket
    rw [Runs.run_cons, ih (kept_consume hkept call.1 call.2)]
    show entriesOf key (h.log ++ [⟨call.1, call.2, (h.limiter.consume call.1 call.2).1⟩]) ++
      trace capacity rate 1 ((h.limiter.consume call.1 call.2).2.bucket? key) _ = _
    rw [hbucket]
    by_cases hkey : call.1 = key
    · subst hkey
      simp [entriesOf, timesOf, trace, hanswer]
    · rw [if_neg (Ne.symm hkey)]
      simp [entriesOf, timesOf, hkey]

omit [CommRing K] in
/-- The successes of a key are those of its trace. -/
theorem successes_eq_granted (key : String) (s t : K) (log : List (Answered K)) :
    successes key s t log = granted s t (entriesOf key log) := by
  unfold successes granted entriesOf
  rw [List.countP_map, List.countP_filter]
  refine List.countP_congr fun e _ => ?_
  simp [and_comm]

omit [CommRing K] in
theorem pairwise_timesOf {calls : List (String × K)}
    (hclock : calls.Pairwise fun a b => a.2 ≤ b.2) (key : String) :
    (timesOf key calls).Pairwise (· ≤ ·) :=
  List.pairwise_map.mpr (hclock.filter _)

variable [IsStrictOrderedRing K]

/-- The tokens of a bucket stay in bounds while the clock goes on. -/
theorem bounded_run (hcapacity : 0 ≤ capacity) (hrate : 0 ≤ rate) :
    ∀ {calls : List (String × K)} {h : LimiterHistory K}, h.limiter.Kept capacity rate →
      (∀ key b, h.limiter.bucket? key = some b →
        Bounded capacity b ∧ ∀ call ∈ calls, b.lastRefill ≤ call.2) →
      (calls.Pairwise fun a b => a.2 ≤ b.2) →
      (Runs.run LimiterHistory.perform h calls).limiter.Kept capacity rate ∧
      ∀ key b, (Runs.run LimiterHistory.perform h calls).limiter.bucket? key = some b →
        Bounded capacity b := by
  intro calls
  induction calls with
  | nil => exact fun hkept hb _ => ⟨hkept, fun key b hget => (hb key b hget).1⟩
  | cons call calls ih =>
    intro h hkept hb hclock
    obtain ⟨hnow, hclock⟩ := List.pairwise_cons.mp hclock
    obtain ⟨_, hbucket, _⟩ := RateLimiter.consume_spec hkept.paired call.1 call.2 1
    rw [hkept.capacity, hkept.rate] at hbucket
    obtain ⟨hbounded, hlast⟩ := tokens_take hcapacity hrate zero_le_one
      (h.limiter.bucket? call.1) call.2
      (fun b hget => ⟨(hb call.1 b hget).1, (hb call.1 b hget).2 call List.mem_cons_self⟩)
    refine ih (kept_consume hkept call.1 call.2) (fun key b hget => ?_) hclock
    have hget := (hbucket key).symm.trans hget
    by_cases hkey : key = call.1
    · rw [if_pos hkey] at hget
      rw [← Option.some.inj hget]
      exact ⟨hbounded, by rw [hlast]; exact hnow⟩
    · rw [if_neg hkey] at hget
      obtain ⟨hbounds, hbefore⟩ := hb key b hget
      exact ⟨hbounds, fun c hc => hbefore c (List.mem_cons_of_mem _ hc)⟩

/-- **The tokens stay in bounds, every window is bounded, and the answers to a
key depend on its own calls only.** -/
theorem consume_limits (hcapacity : 1 ≤ capacity) (hrate : 0 ≤ rate) {calls : List (String × K)}
    (hclock : calls.Pairwise fun a b => a.2 ≤ b.2) :
    (∀ key tokens,
      (Runs.run LimiterHistory.perform (.start capacity rate) calls).limiter.tokens.get? key =
        some tokens → 0 ≤ tokens ∧ tokens ≤ capacity) ∧
    (∀ key s t, s ≤ t →
      (successes key s t (Runs.run LimiterHistory.perform (.start capacity rate) calls).log : K) ≤
        capacity + rate * (t - s)) ∧
    ∀ key calls', timesOf key calls' = timesOf key calls →
      answersOf key (Runs.run LimiterHistory.perform (.start capacity rate) calls').log =
        answersOf key (Runs.run LimiterHistory.perform (.start capacity rate) calls).log := by
  have hpositive : 0 ≤ capacity := zero_le_one.trans hcapacity
  have hstart : (LimiterHistory.start capacity rate).limiter.Kept capacity rate := kept_init
  refine ⟨fun key tokens hget => ?_, fun key s t hwindow => ?_, fun key calls' htimes => ?_⟩
  · obtain ⟨hkept, hbounded⟩ := bounded_run hpositive hrate hstart
      (fun key b hget => absurd hget (by simp [LimiterHistory.start, RateLimiter.init,
        RateLimiter.bucket?])) hclock
    have hkey := hkept.paired key
    rw [hget] at hkey
    obtain ⟨last, hlast⟩ := Option.isSome_iff_exists.mp hkey.symm
    have hb := hbounded key ⟨tokens, last⟩ (by simp [RateLimiter.bucket?, hget, hlast])
    exact ⟨hb.nonneg, hb.le⟩
  · have hwindows := window_le (b := none) hpositive hrate zero_le_one hwindow
      (fun b hb => absurd hb (by simp)) (pairwise_timesOf hclock key)
    rw [successes_eq_granted, entriesOf_run key hstart]
    rw [mul_one, mul_comm (t - s)] at hwindows
    exact hwindows
  · unfold answersOf
    rw [entriesOf_run key hstart, entriesOf_run key hstart, htimes]

end Runs

/-- Two tenants at the limits of the proxy, one of them at two times. -/
theorem consume_limits_two :
    let calls : List (String × ℚ) := [("a", 0), ("b", 0), ("a", 1 / 200)]
    let h := Runs.run LimiterHistory.perform (.start (200 : ℚ) 100) calls
    (∀ key tokens, h.limiter.tokens.get? key = some tokens → 0 ≤ tokens ∧ tokens ≤ 200) ∧
    (∀ key s t, s ≤ t → (successes key s t h.log : ℚ) ≤ 200 + 100 * (t - s)) ∧
    ∀ key calls', timesOf key calls' = timesOf key calls →
      answersOf key (Runs.run LimiterHistory.perform (.start (200 : ℚ) 100) calls').log =
        answersOf key h.log :=
  consume_limits (by decide +kernel) (by decide +kernel) (by decide +kernel)

end Proxy
