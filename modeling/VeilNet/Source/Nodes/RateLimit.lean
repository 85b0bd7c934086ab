import VeilNet.Lib.GoMap
import VeilNet.Lib.GoTime
import VeilNet.Lib.TokenBucket
import VeilNet.Source.Nodes.Settings

/-!
The rate limiter of `internal/nodes/ratelimit.go`. Tokens are rationals, so a refill is exact. The
one clock reading of a call is its argument. Rounding and the mutex are left out.
-/
namespace VeilNet.Source.Nodes
open Lib Lib.GoIP

structure RateLimitConfig where
  authorizeBurst : ℤ
  authorizeWindow : Duration
  mgmtBurst : ℤ
  mgmtWindow : Duration

def defaultRateLimitConfig : RateLimitConfig where
  authorizeBurst := 8
  authorizeWindow := Duration.minute
  mgmtBurst := 60
  mgmtWindow := Duration.minute

/-- The default in the place of a value that is not positive. -/
def positiveOr (value default : ℤ) : ℤ := if value ≤ 0 then default else value

variable (c : RateLimitConfig)

def RateLimitConfig.normalize : RateLimitConfig :=
  let d := defaultRateLimitConfig
  { authorizeBurst := positiveOr c.authorizeBurst d.authorizeBurst
    authorizeWindow := positiveOr c.authorizeWindow d.authorizeWindow
    mgmtBurst := positiveOr c.mgmtBurst d.mgmtBurst
    mgmtWindow := positiveOr c.mgmtWindow d.mgmtWindow }

abbrev Bucket := TokenBucket.Bucket ℚ

structure RateLimiter where
  cfg : RateLimitConfig
  auth : GoMap String Bucket
  mgmt : GoMap String Bucket

def newRateLimiter (cfg : RateLimitConfig) : RateLimiter := ⟨cfg.normalize, ∅, ∅⟩

/-- `net.IP.String`, next to the readings of the `net` package. -/
structure NetNames extends NetText where
  print : Addr → String

def normalizeIP (net : NetNames) (ip : String) : String :=
  if ip = "" then "unknown"
  else
    let host := match net.splitHostPort ip with
      | .ok (host, _) => host
      | .error _ => ip
    match net.parseAddr host with
    | some parsed => net.print parsed
    | none => "invalid:" ++ host

/-- One token per window elapsed, up to the burst. -/
def refill (burst : ℤ) (window : Duration) (now : Time) (b : Bucket) : Bucket :=
  let elapsed := Time.sub now b.last
  if elapsed > 0 then
    let tokens := b.tokens + (elapsed : ℚ) / window
    { tokens := if tokens > burst then burst else tokens, last := now }
  else b

/-- The answer and the buckets after it. -/
def allow (net : NetNames) (m : GoMap String Bucket) (ip : String) (burst : ℤ) (window : Duration)
    (now : Time) : Bool × GoMap String Bucket :=
  let key := normalizeIP net ip
  let b := refill burst window now ((m.lookup key).getD ⟨burst, now⟩)
  if b.tokens < 1 then (false, m.insert key b)
  else (true, m.insert key { b with tokens := b.tokens - 1 })

namespace RateLimiter

def allowAuthorize (net : NetNames) (l : RateLimiter) (ip : String) (now : Time) :
    Bool × RateLimiter :=
  let answer := allow net l.auth ip l.cfg.authorizeBurst l.cfg.authorizeWindow now
  (answer.1, { l with auth := answer.2 })

def allowMgmt (net : NetNames) (l : RateLimiter) (ip : String) (now : Time) : Bool × RateLimiter :=
  let answer := allow net l.mgmt ip l.cfg.mgmtBurst l.cfg.mgmtWindow now
  (answer.1, { l with mgmt := answer.2 })

end RateLimiter

inductive RateClass where
  | authorize
  | mgmt
  deriving DecidableEq

def RateLimitConfig.burst : RateClass → ℤ
  | .authorize => c.authorizeBurst
  | .mgmt => c.mgmtBurst

def RateLimitConfig.window : RateClass → Duration
  | .authorize => c.authorizeWindow
  | .mgmt => c.mgmtWindow

/-- One call with the clock reading it makes. -/
structure RateCall where
  kind : RateClass
  ip : String
  now : Time

namespace RateLimiter

def buckets (l : RateLimiter) : RateClass → GoMap String Bucket
  | .authorize => l.auth
  | .mgmt => l.mgmt

def serve (net : NetNames) (l : RateLimiter) (call : RateCall) : Bool × RateLimiter :=
  match call.kind with
  | .authorize => l.allowAuthorize net call.ip call.now
  | .mgmt => l.allowMgmt net call.ip call.now

def step (net : NetNames) (l : RateLimiter) (call : RateCall) : RateLimiter := (l.serve net call).2

end RateLimiter

def RateCall.key (net : NetNames) (call : RateCall) : RateClass × String :=
  (call.kind, normalizeIP net call.ip)

/-- The bucket under a key, if a call made it. -/
def RateLimiter.bucket? (l : RateLimiter) (key : RateClass × String) : Option Bucket :=
  (l.buckets key.1).lookup key.2

theorem positiveOr_pos {value default : ℤ} (h : 0 < default) : 0 < positiveOr value default := by
  unfold positiveOr
  split
  · exact h
  · next positive => exact not_le.mp positive

theorem RateLimitConfig.burst_pos (kind : RateClass) :
    0 < c.normalize.burst kind := by
  cases kind <;> exact positiveOr_pos (by decide)

theorem RateLimitConfig.window_pos (kind : RateClass) :
    0 < c.normalize.window kind := by
  cases kind <;> exact positiveOr_pos (by decide)

/-- What a refill after `last` adds at `now`. -/
def refillGain (window : Duration) (last now : ℤ) : ℚ := (Time.sub now last : ℚ) / window

theorem refillGain_paced {window : Duration} (positive : 0 < window) :
    TokenBucket.Paced (1 / (window : ℚ)) (refillGain window) := by
  have above : (0 : ℚ) < window := Int.cast_pos.mpr positive
  refine ⟨fun last now later => ?_, fun last now later => ?_⟩
  · have elapsed : 0 < Time.sub now last := (Time.sub_pos_iff now last).mpr later
    exact div_nonneg (Int.cast_nonneg elapsed.le) above.le
  · have bounded : Time.sub now last ≤ now - last := Time.sub_le_of_lt later
    rw [refillGain, one_div_mul_eq_div]
    exact div_le_div_of_nonneg_right (Int.cast_le.mpr bounded) above.le

theorem refill_eq (burst : ℤ) (window : Duration) (now : Time) (b : Bucket) :
    refill burst window now b = TokenBucket.refill (burst : ℚ) (refillGain window) now b := by
  have capped : ∀ x : ℚ, (if x > burst then (burst : ℚ) else x) = min x burst := by
    intro x
    split
    · next above => exact (min_eq_right above.le).symm
    · next inside => exact (min_eq_left (not_lt.mp inside)).symm
  unfold refill TokenBucket.refill
  by_cases later : b.last < now
  · have elapsed : Time.sub now b.last > 0 := (Time.sub_pos_iff now b.last).mpr later
    simp only [if_pos elapsed, if_pos later, capped]
    rfl
  · have none : ¬ Time.sub now b.last > 0 :=
      fun elapsed => later ((Time.sub_pos_iff now b.last).mp elapsed)
    simp only [if_neg none, if_neg later]

/-- A call is one request to the bucket of its address. -/
theorem allow_eq (net : NetNames) (m : GoMap String Bucket) (ip : String) (burst : ℤ)
    (window : Duration) (now : Time) :
    allow net m ip burst window now =
      let request := TokenBucket.draw (burst : ℚ) (refillGain window) now
        ((m.lookup (normalizeIP net ip)).getD ⟨burst, now⟩)
      (request.1, m.insert (normalizeIP net ip) request.2) := by
  simp only [allow, refill_eq, TokenBucket.draw, TokenBucket.take]
  split <;> rfl

namespace RateLimiter

/-- The request a call makes of the bucket under its key. -/
def request (net : NetNames) (l : RateLimiter) (call : RateCall) : Bool × Bucket :=
  TokenBucket.draw (l.cfg.burst call.kind : ℚ) (refillGain (l.cfg.window call.kind)) call.now
    ((l.bucket? (call.key net)).getD ⟨l.cfg.burst call.kind, call.now⟩)

theorem serve_answer (net : NetNames) (l : RateLimiter) (call : RateCall) :
    (l.serve net call).1 = (l.request net call).1 := by
  obtain ⟨kind, ip, now⟩ := call
  cases kind <;> simp only [serve, allowAuthorize, allowMgmt, allow_eq] <;> rfl

@[simp] theorem cfg_step (net : NetNames) (l : RateLimiter) (call : RateCall) :
    (l.step net call).cfg = l.cfg := by
  obtain ⟨kind, ip, now⟩ := call
  cases kind <;> rfl

theorem bucket?_step (net : NetNames) (l : RateLimiter) (call : RateCall)
    (key : RateClass × String) :
    (l.step net call).bucket? key =
      if call.key net = key then some (l.request net call).2 else l.bucket? key := by
  obtain ⟨kind, ip, now⟩ := call
  obtain ⟨other, name⟩ := key
  by_cases same : normalizeIP net ip = name
  · subst same
    cases kind <;> cases other <;>
      simp [step, serve, allowAuthorize, allowMgmt, allow_eq, bucket?, buckets, RateCall.key,
        request, RateLimitConfig.burst, RateLimitConfig.window]
  · have apart : name ≠ normalizeIP net ip := fun eq => same eq.symm
    cases kind <;> cases other <;>
      simp [step, serve, allowAuthorize, allowMgmt, allow_eq, bucket?, buckets, RateCall.key, same,
        AList.lookup_insert_ne apart]

end RateLimiter

end VeilNet.Source.Nodes
