import XChainSdk.Js.Value
import XChainSdk.Lib.Dict

/-!
# The request limiter of the helper API

* `resolveRateLimit`, `resolveRateWindowMs` : the settings of the environment.
* `rateLimit` : the limiter, a fixed window for each credential or source address.
-/

namespace XChainSdk

open Hash

/-! ### Settings -/

/-- A setting that must be a whole non-negative number. -/
def parseWholeNumber (raw : Js) : Option ℕ :=
  let s := trim raw.elemText
  if s.toList.isEmpty || !s.toList.all Char.isDigit then none else (stringToNumber s).safeNat?

/-- Requests for each window; an explicit 0 disables the limiter. -/
def resolveRateLimit (raw : Js) : ℕ := (parseWholeNumber raw).getD 300

/-- The length of the window in milliseconds. -/
def resolveRateWindowMs (raw : Js) : ℕ :=
  match parseWholeNumber raw with
  | none | some 0 => 60000
  | some n => n

theorem resolveRateWindowMs_pos (raw : Js) : 0 < resolveRateWindowMs raw := by
  rw [resolveRateWindowMs]
  split
  · decide
  · decide
  · rename_i n hne _
    exact Nat.pos_of_ne_zero fun h => hne (by rw [h])

/-- What the limiter is mounted with. -/
structure RateConfig where
  /-- 0 disables -/
  limit : ℕ
  windowMs : ℕ
  maxAnonBuckets : ℕ
  isCredential : String → Bool
  windowMs_pos : 0 < windowMs

/-- The limiter as the helper API mounts it. -/
def RateConfig.ofEnv (rateLimit rateWindowMs : Js) (isCredential : String → Bool) : RateConfig where
  limit := resolveRateLimit rateLimit
  windowMs := resolveRateWindowMs rateWindowMs
  maxAnonBuckets := 10000
  isCredential := isCredential
  windowMs_pos := resolveRateWindowMs_pos rateWindowMs

/-! ### Requests -/

/-- What the limiter reads of a request, and the clock at that moment. -/
structure ApiRequest where
  now : ℤ
  authorization : Option String
  ip : Option String
  remoteAddress : Option String

/-- The token of a bearer header. -/
def bearerToken (req : ApiRequest) : Option String :=
  req.authorization.bind fun header =>
    if "Bearer ".toList.isPrefixOf header.toList then some (String.ofList (header.toList.drop 7))
    else none

/-- The token, where it is an accepted credential. -/
def acceptedToken (cfg : RateConfig) (req : ApiRequest) : Option String :=
  (bearerToken req).filter fun token => token != "" && cfg.isCredential token

/-- The source address; an empty one is none. -/
def sourceAddress (req : ApiRequest) : String :=
  ((req.ip.filter (· != "")).or (req.remoteAddress.filter (· != ""))).getD "unknown"

/-- Whom a request is counted against. -/
def identOf (cfg : RateConfig) (req : ApiRequest) : String :=
  match acceptedToken cfg req with
  | some token => "k:" ++ token
  | none => "a:" ++ sourceAddress req

/-- The key of the bucket, so that the map never holds a raw credential. -/
def bucketKey (H : Host) (ident : String) : String := toHex (H.sha256 (utf8 ident)).bytes

/-! ### The limiter -/

/-- The requests of one caller in one window. -/
structure Bucket where
  count : ℕ
  /-- when the window ends -/
  resetAt : ℤ
  anon : Bool

/-- The buckets in the order of their insertion, and how many of them are anonymous. -/
structure RateLimiter where
  buckets : Dict String Bucket
  anonCount : ℤ

/-- The limiter before the first request. -/
def RateLimiter.start : RateLimiter := ⟨.empty, 0⟩

/-- What the limiter does with a request. -/
inductive RateAnswer
  | next
  /-- HTTP 429 with `Retry-After` and error -32005 -/
  | tooMany (retryAfter : ℤ) (message : String)
  deriving DecidableEq

/-- Whether the request goes on to the next handler. -/
def RateAnswer.passed : RateAnswer → Bool
  | .next => true
  | .tooMany _ _ => false

def dropBucket (s : RateLimiter) (key : String) (b : Bucket) : RateLimiter where
  buckets := s.buckets.erase key
  anonCount := if b.anon then s.anonCount - 1 else s.anonCount

/-- Drops the expired buckets from the front and stops at the first live one. -/
def pruneExpired (now : ℤ) : List (String × Bucket) → RateLimiter → RateLimiter
  | [], s => s
  | (key, b) :: rest, s =>
    if now < b.resetAt then s else pruneExpired now rest (dropBucket s key b)

/-- Opens a bucket at the end of the map; a new anonymous address is refused at the cap. -/
def openBucket (cfg : RateConfig) (now : ℤ) (key : String) (anon : Bool) (s : RateLimiter) :
    RateLimiter × Option Bucket :=
  if anon ∧ cfg.maxAnonBuckets ≤ s.anonCount then (s, none)
  else
    let bucket : Bucket := ⟨0, now + cfg.windowMs, anon⟩
    (⟨s.buckets.set key bucket, if anon then s.anonCount + 1 else s.anonCount⟩, some bucket)

/-- The bucket that a request is counted in. -/
def findBucket (cfg : RateConfig) (now : ℤ) (key : String) (anon : Bool) (s : RateLimiter) :
    RateLimiter × Option Bucket :=
  match s.buckets.get? key with
  | some bucket =>
    -- re-inserted at the end, so that a backward clock step cannot strand it mid-map
    if bucket.resetAt ≤ now then openBucket cfg now key anon (dropBucket s key bucket)
    else (s, some bucket)
  | none => openBucket cfg now key anon s

/-- `Math.ceil` of a number of milliseconds in seconds. -/
def ceilSeconds (ms : ℤ) : ℤ := -(-ms / 1000)

/-- The refusal of a new anonymous address. -/
def refuseAtCapacity (cfg : RateConfig) (now : ℤ) (s : RateLimiter) : RateAnswer :=
  let oldest := (s.buckets.entries.head?.map fun e => e.2.resetAt).getD (now + cfg.windowMs)
  let retryAfter := max 1 (ceilSeconds (oldest - now))
  .tooMany retryAfter ("Too many requests: the rate limiter is at capacity for anonymous callers. "
    ++ "Retry after " ++ String.ofList (intText retryAfter) ++ "s.")

/-- The refusal of a caller over its limit. -/
def refuseOverLimit (cfg : RateConfig) (now : ℤ) (bucket : Bucket) : RateAnswer :=
  let retryAfter := ceilSeconds (bucket.resetAt - now)
  .tooMany retryAfter ("Too many requests: limit is " ++ natText cfg.limit ++ " per "
    ++ natText cfg.windowMs ++ "ms. Retry after " ++ String.ofList (intText retryAfter) ++ "s.")

/-- One request. -/
def rateLimit (cfg : RateConfig) (H : Host) (s : RateLimiter) (req : ApiRequest) :
    RateLimiter × RateAnswer :=
  if cfg.limit = 0 then (s, .next)
  else
    let anon := (acceptedToken cfg req).isNone
    let key := bucketKey H (identOf cfg req)
    let pruned := pruneExpired req.now s.buckets.entries s
    match findBucket cfg req.now key anon pruned with
    | (s, none) => (s, refuseAtCapacity cfg req.now s)
    | (s, some bucket) =>
      -- the bucket in the map is the one that is counted up
      let bucket := { bucket with count := bucket.count + 1 }
      let s := { s with buckets := s.buckets.set key bucket }
      if cfg.limit < bucket.count then (s, refuseOverLimit cfg req.now bucket) else (s, .next)

end XChainSdk
