import Mathlib.Algebra.Order.Group.Int
import Mathlib.Tactic.Linarith
import XChainSdk.Api.RateLimit
import XChainSdk.Merkle.SampleHash

/-!
# What the request limiter guarantees

The requests that a limiter serves, in the order of a clock that does not go back.

* `serve` : the requests served, with what became of each.
* `RateLimiter.Sound` : insertion order is expiry order, and the anonymous buckets are counted.
* `rateLimit_cases` : what one request does.
* `ServedRun.Fair` : a caller passes at most as often as its limit in each of its windows.
* `serve_fair` : both hold after every request.
* `rateLimit_invariant` : **the map stays ordered, capped and free of expired buckets, a caller
  passes at most `limit` times in a window, and a credential is refused for its own requests only**.
-/

namespace XChainSdk

open Hash

/-! ### Runs -/

/-- What became of a request. -/
structure Outcome where
  req : ApiRequest
  /-- the end of the window of the bucket that counted it -/
  window : Option ℤ
  answer : RateAnswer

/-- The limiter with the requests it has served. -/
structure ServedRun where
  limiter : RateLimiter
  log : List Outcome

/-- The key that a request is counted under. -/
def keyOf (cfg : RateConfig) (H : Host) (req : ApiRequest) : String := bucketKey H (identOf cfg req)

/-- Serves one more request. -/
def serveOne (cfg : RateConfig) (H : Host) (v : ServedRun) (req : ApiRequest) : ServedRun :=
  let r := rateLimit cfg H v.limiter req
  ⟨r.1, v.log ++ [⟨req, (r.1.buckets.get? (keyOf cfg H req)).map Bucket.resetAt, r.2⟩]⟩

/-- Serves the requests from the start. -/
def serve (cfg : RateConfig) (H : Host) (reqs : List ApiRequest) : ServedRun :=
  reqs.foldl (serveOne cfg H) ⟨.start, []⟩

theorem serve_append (cfg : RateConfig) (H : Host) (reqs : List ApiRequest) (req : ApiRequest) :
    serve cfg H (reqs ++ [req]) = serveOne cfg H (serve cfg H reqs) req := by
  rw [serve, List.foldl_append]
  rfl

/-! ### The buckets -/

/-- The map of buckets at a time. -/
structure RateLimiter.Sound (cfg : RateConfig) (now : ℤ) (s : RateLimiter) : Prop where
  /-- insertion order is expiry order -/
  ordered : (s.buckets.entries.map fun e => e.2.resetAt).Pairwise (· ≤ ·)
  within : ∀ e ∈ s.buckets.entries, e.2.resetAt ≤ now + cfg.windowMs
  counted : s.anonCount = s.buckets.entries.countP fun e => e.2.anon
  capped : s.anonCount ≤ cfg.maxAnonBuckets

/-- No bucket has expired. -/
def RateLimiter.Live (now : ℤ) (s : RateLimiter) : Prop :=
  ∀ e ∈ s.buckets.entries, now < e.2.resetAt

variable {cfg : RateConfig} {H : Host} {s : RateLimiter} {now : ℤ} {key : String} {b : Bucket}

theorem RateLimiter.sound_start : RateLimiter.start.Sound cfg now where
  ordered := List.Pairwise.nil
  within := fun _ he => absurd he List.not_mem_nil
  counted := rfl
  capped := Int.natCast_nonneg _

theorem RateLimiter.Sound.mono {later : ℤ} (h : s.Sound cfg now) (hle : now ≤ later) :
    s.Sound cfg later where
  ordered := h.ordered
  within := fun e he => (h.within e he).trans (by linarith)
  counted := h.counted
  capped := h.capped

/-- The bucket at the front can be dropped. -/
theorem RateLimiter.Sound.dropBucket {rest : List (String × Bucket)} (h : s.Sound cfg now)
    (hs : s.buckets.entries = (key, b) :: rest) : (dropBucket s key b).Sound cfg now := by
  have hentries : (XChainSdk.dropBucket s key b).buckets.entries = rest :=
    Dict.entries_erase_head hs
  have hordered := h.ordered
  have hcounted := h.counted
  have hcapped := h.capped
  rw [hs, List.map_cons, List.pairwise_cons] at hordered
  rw [hs, List.countP_cons] at hcounted
  have hcount : (XChainSdk.dropBucket s key b).anonCount =
      rest.countP fun e => e.2.anon := by
    simp only [XChainSdk.dropBucket]
    split_ifs with hb
    · rw [hcounted, if_pos hb]
      simp
    · rw [hcounted, if_neg hb]
      simp
  refine ⟨?_, fun e he => h.within e ?_, ?_, ?_⟩
  · rw [hentries]
    exact hordered.2
  · rw [hs]
    rw [hentries] at he
    exact List.mem_cons_of_mem _ he
  · rw [hcount, hentries]
  · refine le_trans ?_ hcapped
    simp only [XChainSdk.dropBucket]
    split_ifs <;> linarith

/-- Pruning the front drops exactly the expired buckets. -/
theorem pruneExpired_spec {es : List (String × Bucket)} (hs : s.buckets.entries = es)
    (h : s.Sound cfg now) :
    (pruneExpired now es s).Sound cfg now ∧
      ∀ e, e ∈ (pruneExpired now es s).buckets.entries ↔
        e ∈ s.buckets.entries ∧ now < e.2.resetAt := by
  induction es generalizing s with
  | nil =>
    refine ⟨h, fun e => ?_⟩
    rw [pruneExpired, hs]
    simp
  | cons entry rest ih =>
    obtain ⟨key, b⟩ := entry
    rw [pruneExpired]
    split_ifs with hlive
    · refine ⟨h, fun e => ⟨fun he => ⟨he, ?_⟩, And.left⟩⟩
      -- the front is live and the later buckets expire no earlier
      have hordered := h.ordered
      rw [hs, List.map_cons, List.pairwise_cons] at hordered
      rw [hs] at he
      rcases List.mem_cons.1 he with rfl | he
      · exact hlive
      · exact hlive.trans_le (hordered.1 _ (List.mem_map_of_mem he))
    · have hentries : (dropBucket s key b).buckets.entries = rest := Dict.entries_erase_head hs
      obtain ⟨hsound, hmem⟩ := ih hentries (h.dropBucket hs)
      refine ⟨hsound, fun e => ?_⟩
      rw [hmem, hentries, hs, List.mem_cons]
      constructor
      · exact fun he => ⟨.inr he.1, he.2⟩
      · rintro ⟨rfl | he, hlt⟩
        · exact absurd hlt hlive
        · exact ⟨he, hlt⟩

/-- A bucket is kept when it has not expired. -/
theorem get?_pruneExpired (h : s.Sound cfg now) :
    (pruneExpired now s.buckets.entries s).buckets.get? key = some b ↔
      s.buckets.get? key = some b ∧ now < b.resetAt := by
  have hmem := (pruneExpired_spec rfl h).2
  constructor
  · intro hb
    obtain ⟨he, hlt⟩ := (hmem _).1 (Dict.mem_entries_of_get? hb)
    exact ⟨Dict.get?_of_mem he, hlt⟩
  · rintro ⟨hb, hlt⟩
    exact Dict.get?_of_mem ((hmem (key, b)).2 ⟨Dict.mem_entries_of_get? hb, hlt⟩)

/-- A bucket opened at the end keeps the map in order. -/
theorem RateLimiter.Sound.openBucket {anon : Bool} (h : s.Sound cfg now)
    (hroom : ¬(anon ∧ cfg.maxAnonBuckets ≤ s.anonCount)) (hkey : s.buckets.get? key = none) :
    RateLimiter.Sound cfg now ⟨s.buckets.set key ⟨0, now + cfg.windowMs, anon⟩,
      if anon then s.anonCount + 1 else s.anonCount⟩ := by
  have hentries := Dict.entries_set_of_get? hkey ⟨0, now + cfg.windowMs, anon⟩
  refine ⟨?_, fun e he => ?_, ?_, ?_⟩
  · simp only [hentries, List.map_append, List.map_cons, List.map_nil]
    refine List.pairwise_append.2 ⟨h.ordered, List.pairwise_singleton _ _, fun x hx y hy => ?_⟩
    obtain ⟨e, he, rfl⟩ := List.mem_map.1 hx
    rw [List.mem_singleton.1 hy]
    exact h.within e he
  · simp only [hentries, List.mem_append, List.mem_singleton] at he
    rcases he with he | rfl
    · exact h.within e he
    · exact le_rfl
  · simp only [hentries, List.countP_append, List.countP_singleton]
    rw [h.counted]
    split_ifs <;> simp
  · simp only
    split_ifs with hanon
    · have hlt : s.anonCount < cfg.maxAnonBuckets := by
        by_contra hle
        exact hroom ⟨hanon, not_lt.1 hle⟩
      linarith
    · exact h.capped

/-- Counting a request keeps the order and the anonymous buckets. -/
theorem RateLimiter.Sound.setCount (h : s.Sound cfg now) (hb : s.buckets.get? key = some b)
    (n : ℕ) :
    RateLimiter.Sound cfg now { s with buckets := s.buckets.set key { b with count := n } } := by
  obtain ⟨l, r, hentries, hset⟩ := Dict.exists_entries_set hb { b with count := n }
  have hordered := h.ordered
  have hcounted := h.counted
  rw [hentries] at hordered hcounted
  refine ⟨?_, fun e he => ?_, ?_, h.capped⟩
  · simp only [hset]
    simpa using hordered
  · simp only [hset, List.mem_append, List.mem_cons] at he
    have hmem : ∀ x, x ∈ l ∨ x = (key, b) ∨ x ∈ r → x ∈ s.buckets.entries := fun x hx => by
      rw [hentries]
      simpa using hx
    rcases he with he | rfl | he
    · exact h.within e (hmem e (.inl he))
    · exact h.within (key, b) (hmem _ (.inr (.inl rfl)))
    · exact h.within e (hmem e (.inr (.inr he)))
  · simp only [hset]
    rw [hcounted]
    simp [List.countP_append, List.countP_cons]

/-! ### One request -/

/-- The live buckets when a request arrives. -/
def livePart (s : RateLimiter) (now : ℤ) : RateLimiter := pruneExpired now s.buckets.entries s

/-- The bucket at a key, where there is one. -/
def RateLimiter.BucketAt (s : RateLimiter) (key : String) (n : ℕ) (window : ℤ) : Prop :=
  ∃ b, s.buckets.get? key = some b ∧ b.count = n ∧ b.resetAt = window

theorem RateLimiter.Live.set (h : s.Live now) (hb : now < b.resetAt) (n : ℤ) :
    RateLimiter.Live now ⟨s.buckets.set key b, n⟩ := fun e he => by
  have hget := Dict.get?_of_mem he
  simp only [Dict.get?_set] at hget
  split_ifs at hget
  · cases hget
    exact hb
  · exact h _ (Dict.mem_entries_of_get? hget)

/-- A request is counted in the bucket that is there, or in a new one, or the map is full. -/
theorem findBucket_cases (key : String) (anon : Bool) (h : s.Sound cfg now) (hlive : s.Live now) :
    (∃ s' b, findBucket cfg now key anon s = (s', some b) ∧ s'.Sound cfg now ∧ s'.Live now ∧
      s'.buckets.get? key = some b ∧
      (∀ k, k ≠ key → s'.buckets.get? k = s.buckets.get? k) ∧
      (s.buckets.get? key = some b ∨
        s.buckets.get? key = none ∧ b.count = 0 ∧ b.resetAt = now + cfg.windowMs)) ∨
    findBucket cfg now key anon s = (s, none) ∧ s.buckets.get? key = none ∧ anon = true := by
  cases hb : s.buckets.get? key with
  | some b =>
    have hb' : now < b.resetAt := hlive _ (Dict.mem_entries_of_get? hb)
    refine .inl ⟨s, b, ?_, h, hlive, hb, fun k _ => rfl, .inl rfl⟩
    rw [findBucket, hb]
    exact if_neg (not_le.2 hb')
  | none =>
    have hopen : findBucket cfg now key anon s = openBucket cfg now key anon s := by
      rw [findBucket, hb]
    rw [hopen, openBucket]
    by_cases hfull : anon = true ∧ cfg.maxAnonBuckets ≤ s.anonCount
    · rw [if_pos hfull]
      exact .inr ⟨rfl, rfl, hfull.1⟩
    · rw [if_neg hfull]
      have hpos : now < now + cfg.windowMs := by
        have := cfg.windowMs_pos
        omega
      refine .inl ⟨_, _, rfl, h.openBucket hfull hb, hlive.set hpos _, ?_, fun k hk => ?_,
        .inr ⟨rfl, rfl, rfl⟩⟩
      · rw [Dict.get?_set, if_pos rfl]
      · rw [Dict.get?_set, if_neg hk]

variable {req : ApiRequest}

/-- A request is counted in its bucket, or it is of a new anonymous address at the cap. -/
theorem rateLimit_cases (hlimit : 0 < cfg.limit) (h : s.Sound cfg req.now) :
    (∃ n window s' a, rateLimit cfg H s req = (s', a) ∧ s'.Sound cfg req.now ∧ s'.Live req.now ∧
      ((livePart s req.now).BucketAt (keyOf cfg H req) n window ∨
        (livePart s req.now).buckets.get? (keyOf cfg H req) = none ∧ n = 0 ∧
          window = req.now + cfg.windowMs) ∧
      s'.BucketAt (keyOf cfg H req) (n + 1) window ∧
      (∀ key, key ≠ keyOf cfg H req →
        s'.buckets.get? key = (livePart s req.now).buckets.get? key) ∧
      (a.passed = true ↔ n + 1 ≤ cfg.limit)) ∨
    ∃ a, rateLimit cfg H s req = (livePart s req.now, a) ∧ a.passed = false ∧
      (livePart s req.now).buckets.get? (keyOf cfg H req) = none ∧
      acceptedToken cfg req = none := by
  obtain ⟨hsound, hmem⟩ := pruneExpired_spec rfl h
  have hlive : (livePart s req.now).Live req.now := fun e he => ((hmem e).1 he).2
  have hne : cfg.limit ≠ 0 := hlimit.ne'
  rcases findBucket_cases (keyOf cfg H req) (acceptedToken cfg req).isNone hsound hlive with
    ⟨s₁, b, hfind, hs₁, hlive₁, hget, hother, hb⟩ | ⟨hfind, hget, hanon⟩
  · have hcounted := hs₁.setCount hget (b.count + 1)
    have hcountedLive : RateLimiter.Live req.now
        ⟨s₁.buckets.set (keyOf cfg H req) { b with count := b.count + 1 }, s₁.anonCount⟩ :=
      hlive₁.set (b := { b with count := b.count + 1 })
        (hlive₁ (_, b) (Dict.mem_entries_of_get? hget)) _
    refine .inl ⟨b.count, b.resetAt, _, if cfg.limit < b.count + 1 then
      refuseOverLimit cfg req.now { b with count := b.count + 1 } else .next, ?_, hcounted,
      hcountedLive, ?_, ⟨{ b with count := b.count + 1 }, ?_, rfl, rfl⟩, fun k hk => ?_, ?_⟩
    · rw [keyOf] at hfind
      rw [rateLimit, if_neg hne]
      simp only [hfind]
      split_ifs <;> rfl
    · exact hb.imp (fun hb => ⟨b, hb, rfl, rfl⟩) id
    · rw [Dict.get?_set, if_pos rfl]
    · rw [Dict.get?_set, if_neg hk]
      exact hother k hk
    · by_cases hover : cfg.limit < b.count + 1
      · rw [if_pos hover]
        exact ⟨fun hp => (by cases hp), fun hle => absurd hover (not_lt.2 hle)⟩
      · rw [if_neg hover]
        exact ⟨fun _ => not_lt.1 hover, fun _ => rfl⟩
  · refine .inr ⟨refuseAtCapacity cfg req.now (livePart s req.now), ?_, rfl, hget,
      Option.isNone_iff_eq_none.1 hanon⟩
    rw [keyOf] at hfind
    rw [rateLimit, if_neg hne]
    simp only [hfind]
    rfl

/-! ### The requests of a run -/

/-- The requests that were counted under a key in the window that ends then. -/
def Outcome.countedAt (cfg : RateConfig) (H : Host) (key : String) (window : ℤ) (o : Outcome) :
    Bool :=
  keyOf cfg H o.req == key && o.window == some window

/-- What the buckets say about the requests served. -/
structure ServedRun.Fair (cfg : RateConfig) (H : Host) (now : ℤ) (v : ServedRun) : Prop where
  /-- a bucket counts the requests under its key in its window -/
  counts : ∀ key b, v.limiter.buckets.get? key = some b →
    0 < b.count ∧ b.count = v.log.countP (Outcome.countedAt cfg H key b.resetAt)
  /-- a window that has not ended is the one of the bucket -/
  current : ∀ o ∈ v.log, ∀ r, o.window = some r → now < r →
    ∃ b, v.limiter.buckets.get? (keyOf cfg H o.req) = some b ∧ b.resetAt = r
  limited : ∀ key r, (v.log.countP fun o => o.countedAt cfg H key r && o.answer.passed) ≤ cfg.limit
  span : ∀ o ∈ v.log, ∀ r, o.window = some r → o.req.now < r ∧ r ≤ o.req.now + cfg.windowMs
  /-- the windows of a key follow one another -/
  apart : ∀ o ∈ v.log, ∀ o' ∈ v.log, keyOf cfg H o.req = keyOf cfg H o'.req →
    ∀ r r', o.window = some r → o'.window = some r' → r < r' → r + cfg.windowMs ≤ r'
  passes : ∀ o ∈ v.log, o.answer.passed = true → o.window.isSome
  refused : ∀ o ∈ v.log, o.window = none → acceptedToken cfg o.req = none

variable {v : ServedRun}

theorem ServedRun.fair_start : ServedRun.Fair cfg H now ⟨.start, []⟩ where
  counts := fun key b h => by cases h
  current := fun o h => by cases h
  limited := fun key r => Nat.zero_le _
  span := fun o h => by cases h
  apart := fun o h => by cases h
  passes := fun o h => by cases h
  refused := fun o h => by cases h

theorem ServedRun.Fair.mono {later : ℤ} (h : v.Fair cfg H now) (hle : now ≤ later) :
    v.Fair cfg H later where
  counts := h.counts
  current := fun o ho r hr hlt => h.current o ho r hr (hle.trans_lt hlt)
  limited := h.limited
  span := h.span
  apart := h.apart
  passes := h.passes
  refused := h.refused

theorem countedAt_iff {o : Outcome} {r : ℤ} :
    o.countedAt cfg H key r = true ↔ keyOf cfg H o.req = key ∧ o.window = some r := by
  simp [Outcome.countedAt]

/-- The bucket that counts a request has counted the requests of its window so far. -/
theorem ServedRun.Fair.count_eq (h : v.Fair cfg H req.now) (hs : v.limiter.Sound cfg req.now) {n : ℕ}
    {window : ℤ} (hb : (livePart v.limiter req.now).BucketAt key n window ∨
      (livePart v.limiter req.now).buckets.get? key = none ∧ n = 0 ∧
        window = req.now + cfg.windowMs) :
    n = v.log.countP (Outcome.countedAt cfg H key window) := by
  rcases hb with ⟨b, hb, rfl, rfl⟩ | ⟨hnone, rfl, rfl⟩
  · exact (h.counts _ _ ((get?_pruneExpired hs).1 hb).1).2
  · -- no request was counted in the new window: its bucket would be there
    refine (List.countP_eq_zero.2 fun o ho hcounted => ?_).symm
    obtain ⟨rfl, hwindow⟩ := countedAt_iff.1 hcounted
    have hlt : req.now < req.now + cfg.windowMs := by
      have := cfg.windowMs_pos
      omega
    obtain ⟨b, hb, hreset⟩ := h.current o ho _ hwindow hlt
    have hlive := (get?_pruneExpired hs).2 ⟨hb, hreset ▸ hlt⟩
    rw [livePart, hlive] at hnone
    cases hnone

/-- The window of the request starts after the earlier windows of its key. -/
theorem ServedRun.Fair.apart_of_bucket (h : v.Fair cfg H req.now) (hs : v.limiter.Sound cfg req.now)
    {n : ℕ} {window : ℤ} (hb : (livePart v.limiter req.now).BucketAt key n window ∨
      (livePart v.limiter req.now).buckets.get? key = none ∧ n = 0 ∧
        window = req.now + cfg.windowMs) {o : Outcome} (ho : o ∈ v.log)
    (hkey : keyOf cfg H o.req = key) {r : ℤ} (hr : o.window = some r) :
    r = window ∨ r + cfg.windowMs ≤ window := by
  rcases hb with ⟨b, hb, rfl, rfl⟩ | ⟨hnone, -, rfl⟩
  · obtain ⟨hget, hlive⟩ := (get?_pruneExpired hs).1 hb
    rcases le_or_gt r req.now with hle | hlt
    · -- the bucket has counted a request, whose window is apart from the earlier one
      obtain ⟨hpos, hcount⟩ := h.counts _ _ hget
      obtain ⟨o', ho', hcounted⟩ := List.countP_pos_iff.1 (hcount ▸ hpos)
      obtain ⟨hkey', hr'⟩ := countedAt_iff.1 hcounted
      exact .inr (h.apart o ho o' ho' (hkey.trans hkey'.symm) r _ hr hr' (hle.trans_lt hlive))
    · obtain ⟨b', hb', hreset⟩ := h.current o ho r hr hlt
      rw [hkey, hget] at hb'
      cases hb'
      exact .inl hreset.symm
  · rcases le_or_gt r req.now with hle | hlt
    · exact .inr (by linarith)
    · obtain ⟨b', hb', hreset⟩ := h.current o ho r hr hlt
      rw [hkey] at hb'
      have hlive := (get?_pruneExpired hs).2 ⟨hb', hreset ▸ hlt⟩
      rw [livePart, hlive] at hnone
      cases hnone

/-- A request that no bucket counts keeps the account. -/
theorem ServedRun.Fair.uncounted (h : v.Fair cfg H req.now) (hs : v.limiter.Sound cfg req.now)
    {a : RateAnswer} (hpass : a.passed = false) (hanon : acceptedToken cfg req = none) :
    ServedRun.Fair cfg H req.now
      ⟨livePart v.limiter req.now, v.log ++ [⟨req, none, a⟩]⟩ where
  counts := fun key b hb => by
    obtain ⟨hpos, hcount⟩ := h.counts key b ((get?_pruneExpired hs).1 hb).1
    have hlast : ¬Outcome.countedAt cfg H key b.resetAt ⟨req, none, a⟩ = true := by
      simp [Outcome.countedAt]
    rw [List.countP_append, List.countP_singleton, if_neg hlast]
    exact ⟨hpos, hcount⟩
  current := Loop.forall_mem_snoc (fun o ho r hr hlt => by
    obtain ⟨b, hb, rfl⟩ := h.current o ho r hr hlt
    exact ⟨b, (get?_pruneExpired hs).2 ⟨hb, hlt⟩, rfl⟩) fun r hr => by cases hr
  limited := fun key r => by
    rw [List.countP_append, List.countP_singleton, hpass, Bool.and_false]
    exact h.limited key r
  span := Loop.forall_mem_snoc h.span fun r hr => by cases hr
  apart := Loop.forall_mem_snoc
    (fun o ho => Loop.forall_mem_snoc (h.apart o ho) fun _ r r' _ hr' => by cases hr')
    fun o' _ _ r r' hr => by cases hr
  passes := Loop.forall_mem_snoc h.passes fun ha => by
    rw [hpass] at ha
    cases ha
  refused := Loop.forall_mem_snoc h.refused fun _ => hanon

/-- A request that its bucket counts keeps the account. -/
theorem ServedRun.Fair.counted (h : v.Fair cfg H req.now) (hs : v.limiter.Sound cfg req.now) {n : ℕ}
    {window : ℤ} {s' : RateLimiter} {a : RateAnswer}
    (hb : (livePart v.limiter req.now).BucketAt (keyOf cfg H req) n window ∨
      (livePart v.limiter req.now).buckets.get? (keyOf cfg H req) = none ∧ n = 0 ∧
        window = req.now + cfg.windowMs)
    (hs' : s'.Sound cfg req.now) (hlive' : s'.Live req.now)
    (hb' : s'.BucketAt (keyOf cfg H req) (n + 1) window)
    (hother : ∀ key, key ≠ keyOf cfg H req →
      s'.buckets.get? key = (livePart v.limiter req.now).buckets.get? key)
    (hpass : a.passed = true ↔ n + 1 ≤ cfg.limit) :
    ServedRun.Fair cfg H req.now ⟨s', v.log ++ [⟨req, some window, a⟩]⟩ := by
  obtain ⟨b', hget', hcount', rfl⟩ := hb'
  have hn := h.count_eq hs hb
  have hstart : req.now < b'.resetAt := hlive' _ (Dict.mem_entries_of_get? hget')
  have hend : b'.resetAt ≤ req.now + cfg.windowMs :=
    hs'.within _ (Dict.mem_entries_of_get? hget')
  -- An earlier window of the key is this one or ends before it starts.
  have hapart : ∀ o ∈ v.log, keyOf cfg H o.req = keyOf cfg H req → ∀ r, o.window = some r →
      r = b'.resetAt ∨ r + cfg.windowMs ≤ b'.resetAt :=
    fun o ho hkey r hr => h.apart_of_bucket hs hb ho hkey hr
  refine ⟨fun key b hget => ?_, Loop.forall_mem_snoc (fun o ho r hr hlt => ?_) fun r hr _ => ?_,
    fun key r => ?_, Loop.forall_mem_snoc h.span fun r hr => ?_, Loop.forall_mem_snoc (fun o ho =>
      Loop.forall_mem_snoc (h.apart o ho) fun hkey r r' hr hr' hlt => ?_) (Loop.forall_mem_snoc
      (fun o ho hkey r r' hr hr' hlt => ?_) fun _ r r' hr hr' hlt => ?_),
    Loop.forall_mem_snoc h.passes fun _ => rfl, Loop.forall_mem_snoc h.refused fun hr => by cases hr⟩
  -- The counts of the buckets, the one of the request raised by one.
  · rw [List.countP_append, List.countP_singleton]
    by_cases hkey : key = keyOf cfg H req
    · subst hkey
      rw [hget'] at hget
      cases hget
      have hlast : Outcome.countedAt cfg H (keyOf cfg H req) b'.resetAt
          ⟨req, some b'.resetAt, a⟩ = true := countedAt_iff.2 ⟨rfl, rfl⟩
      rw [if_pos hlast, ← hn, hcount']
      exact ⟨Nat.succ_pos n, rfl⟩
    · have hlast : ¬Outcome.countedAt cfg H key b.resetAt ⟨req, some b'.resetAt, a⟩ = true :=
        fun hc => hkey (countedAt_iff.1 hc).1.symm
      rw [hother key hkey] at hget
      rw [if_neg hlast]
      exact h.counts key b ((get?_pruneExpired hs).1 hget).1
  · by_cases hkey : keyOf cfg H o.req = keyOf cfg H req
    · refine ⟨b', hkey ▸ hget', ?_⟩
      rcases hapart o ho hkey r hr with rfl | hle
      · rfl
      · linarith
    · obtain ⟨b, hb, rfl⟩ := h.current o ho r hr hlt
      exact ⟨b, by rw [hother _ hkey]; exact (get?_pruneExpired hs).2 ⟨hb, hlt⟩, rfl⟩
  · exact ⟨b', hget', Option.some.inj hr⟩
  -- No window passes more than the limit: the request passes only while its count fits.
  · rw [List.countP_append, List.countP_singleton]
    split_ifs with hlast
    · obtain ⟨hc, hp⟩ := Bool.and_eq_true_iff.1 hlast
      obtain ⟨rfl, hr⟩ := countedAt_iff.1 hc
      cases hr
      have hle : (v.log.countP fun o => o.countedAt cfg H (keyOf cfg H req) b'.resetAt &&
          o.answer.passed) ≤ n := by
        rw [hn]
        exact List.countP_mono_left fun o _ ho => (Bool.and_eq_true_iff.1 ho).1
      exact (Nat.succ_le_succ hle).trans (hpass.1 hp)
    · exact h.limited key r
  · cases hr
    exact ⟨hstart, hend⟩
  · cases hr'
    exact (hapart o ho hkey r hr).resolve_left hlt.ne
  · cases hr
    rcases hapart o ho hkey.symm r' hr' with rfl | hle
    · exact absurd hlt (lt_irrefl _)
    · have := cfg.windowMs_pos
      omega
  · cases hr
    cases hr'
    exact absurd hlt (lt_irrefl _)

/-- One request keeps the buckets and the account. -/
theorem ServedRun.serveOne_fair (hlimit : 0 < cfg.limit) (h : v.Fair cfg H req.now)
    (hs : v.limiter.Sound cfg req.now) :
    (serveOne cfg H v req).limiter.Sound cfg req.now ∧
      (serveOne cfg H v req).limiter.Live req.now ∧ (serveOne cfg H v req).Fair cfg H req.now := by
  rcases rateLimit_cases (H := H) hlimit hs with
    ⟨n, window, s', a, hrun, hs', hlive', hb, hb', hother, hpass⟩ | ⟨a, hrun, hpass, hnone, hanon⟩
  · have hv : serveOne cfg H v req = ⟨s', v.log ++ [⟨req, some window, a⟩]⟩ := by
      obtain ⟨b', hget', -, rfl⟩ := hb'
      rw [serveOne, hrun]
      simp only [hget', Option.map_some]
    rw [hv]
    exact ⟨hs', hlive', h.counted hs hb hs' hlive' hb' hother hpass⟩
  · have hv : serveOne cfg H v req =
        ⟨livePart v.limiter req.now, v.log ++ [⟨req, none, a⟩]⟩ := by
      rw [serveOne, hrun]
      simp only [hnone, Option.map_none]
    rw [hv]
    obtain ⟨hsound, hmem⟩ := pruneExpired_spec rfl hs
    exact ⟨hsound, fun e he => ((hmem e).1 he).2, h.uncounted hs hpass hanon⟩

/-! ### Every run -/

/-- After every request the buckets are sound and the account is fair. -/
theorem serve_fair (hlimit : 0 < cfg.limit) {reqs : List ApiRequest}
    (hclock : (reqs.map ApiRequest.now).Pairwise (· ≤ ·)) (hend : ∀ q ∈ reqs, q.now ≤ now) :
    (serve cfg H reqs).limiter.Sound cfg now ∧ (serve cfg H reqs).Fair cfg H now := by
  induction reqs using List.reverseRecOn generalizing now with
  | nil => exact ⟨RateLimiter.sound_start, ServedRun.fair_start⟩
  | append_singleton reqs req ih =>
    rw [List.map_append, List.pairwise_append] at hclock
    obtain ⟨hs, hfair⟩ := ih hclock.1 fun q hq =>
      hclock.2.2 _ (List.mem_map_of_mem hq) req.now (by simp)
    have hle : req.now ≤ now := hend req (by simp)
    obtain ⟨hs', -, hfair'⟩ := ServedRun.serveOne_fair hlimit hfair hs
    rw [serve_append]
    exact ⟨hs'.mono hle, hfair'.mono hle⟩

/-- A limiter that is switched off counts nothing. -/
theorem serve_of_limit_zero (hlimit : cfg.limit = 0) (reqs : List ApiRequest) :
    (serve cfg H reqs).limiter = .start ∧
      ∀ o ∈ (serve cfg H reqs).log, o.window = none ∧ o.answer.passed = true := by
  induction reqs using List.reverseRecOn with
  | nil => exact ⟨rfl, fun o ho => absurd ho List.not_mem_nil⟩
  | append_singleton reqs req ih =>
    obtain ⟨hstart, hlog⟩ := ih
    have hrun : rateLimit cfg H .start req = (.start, .next) := by
      rw [rateLimit, if_pos hlimit]
    rw [serve_append, serveOne, hstart, hrun]
    exact ⟨rfl, Loop.forall_mem_snoc hlog ⟨rfl, rfl⟩⟩

theorem acceptedToken_of_identOf {q : ApiRequest} {token : String}
    (h : identOf cfg q = "k:" ++ token) : acceptedToken cfg q = some token := by
  rw [identOf] at h
  split at h
  · rename_i t ht
    rw [ht, (String.append_right_inj "k:").1 h]
  · have := congrArg String.toList h
    simp at this

/-- An accepted credential is refused for its own requests. -/
theorem ServedRun.Fair.own_count (hlimit : 0 < cfg.limit) (h : v.Fair cfg H req.now)
    (hs : v.limiter.Sound cfg req.now) {token : String}
    (htoken : acceptedToken cfg req = some token)
    (hrefused : (rateLimit cfg H v.limiter req).2.passed = false)
    (hfree : CollisionFree H.sha256
      {x | ∃ o ∈ (XChainSdk.serveOne cfg H v req).log, x = utf8 (identOf cfg o.req)}) :
    ∃ r, req.now < r ∧ cfg.limit < (XChainSdk.serveOne cfg H v req).log.countP fun o =>
      decide (acceptedToken cfg o.req = some token ∧ o.window = some r) := by
  obtain ⟨-, -, hfair⟩ := ServedRun.serveOne_fair hlimit h hs
  rcases rateLimit_cases (H := H) hlimit hs with
    ⟨n, window, s', a, hrun, -, hlive', -, ⟨b', hget', hcount', rfl⟩, -, hpass⟩ |
    ⟨a, -, -, -, hanon⟩
  · have hlimiter : (XChainSdk.serveOne cfg H v req).limiter = s' := by
      rw [XChainSdk.serveOne, hrun]
    have hlast : req ∈ (XChainSdk.serveOne cfg H v req).log.map Outcome.req := by
      rw [XChainSdk.serveOne]
      simp
    obtain ⟨o', ho', hreq⟩ := List.mem_map.1 hlast
    rw [hrun] at hrefused
    have hover : cfg.limit < n + 1 := by
      by_contra hle
      rw [hpass.2 (not_lt.1 hle)] at hrefused
      cases hrefused
    refine ⟨b'.resetAt, hlive' _ (Dict.mem_entries_of_get? hget'), ?_⟩
    rw [← hcount', (hfair.counts _ b' (by rw [hlimiter]; exact hget')).2] at hover
    refine hover.trans_le (List.countP_mono_left fun o ho hcounted => ?_)
    -- the same key is the same digest, so the same identity
    obtain ⟨hkey, hwindow⟩ := countedAt_iff.1 hcounted
    have hident : utf8 (identOf cfg o.req) = utf8 (identOf cfg req) :=
      hfree ⟨o, ho, rfl⟩ ⟨o', ho', by rw [hreq]⟩ (Digest.ext (toHex_injective hkey))
    refine decide_eq_true ⟨acceptedToken_of_identOf ?_, hwindow⟩
    rw [utf8_injective hident, identOf, htoken]
  · rw [htoken] at hanon
    cases hanon

/-- **The limiter after any requests, in the order of a clock that does not go back.** -/
theorem rateLimit_invariant (cfg : RateConfig) (H : Host) (reqs : List ApiRequest)
    (req : ApiRequest) (hclock : ((reqs ++ [req]).map ApiRequest.now).Pairwise (· ≤ ·)) :
    let v := serve cfg H (reqs ++ [req])
    -- the map is in the order of expiry, its anonymous buckets are counted and capped, and no
    -- expired bucket remains
    v.limiter.Sound cfg req.now ∧ v.limiter.Live req.now ∧
    -- a bucket counts every request under its key in its window
    (∀ key b, v.limiter.buckets.get? key = some b →
      b.count = v.log.countP fun o => o.countedAt cfg H key b.resetAt) ∧
    -- no address and no credential passes more than `limit` times in a window
    (∀ address r, (v.log.countP fun o => decide (acceptedToken cfg o.req = none ∧
      sourceAddress o.req = address ∧ o.window = some r ∧ o.answer.passed = true)) ≤ cfg.limit) ∧
    (∀ token r, (v.log.countP fun o => decide (acceptedToken cfg o.req = some token ∧
      o.window = some r ∧ o.answer.passed = true)) ≤ cfg.limit) ∧
    -- what passes is counted in a window that is running, and these follow one another
    (0 < cfg.limit → ∀ o ∈ v.log, o.answer.passed = true →
      ∃ r, o.window = some r ∧ o.req.now < r ∧ r ≤ o.req.now + cfg.windowMs) ∧
    (∀ o ∈ v.log, ∀ o' ∈ v.log, identOf cfg o.req = identOf cfg o'.req →
      ∀ r r', o.window = some r → o'.window = some r' → r < r' → r + cfg.windowMs ≤ r') ∧
    -- an accepted credential is refused for its own requests only
    ∀ token, acceptedToken cfg req = some token →
      (rateLimit cfg H (serve cfg H reqs).limiter req).2.passed = false →
      CollisionFree H.sha256 {x | ∃ o ∈ v.log, x = utf8 (identOf cfg o.req)} →
      ∃ r, req.now < r ∧ cfg.limit < v.log.countP fun o =>
        decide (acceptedToken cfg o.req = some token ∧ o.window = some r) := by
  intro v
  rcases Nat.eq_zero_or_pos cfg.limit with hzero | hlimit
  · obtain ⟨hstart, hlog⟩ := serve_of_limit_zero (H := H) hzero (reqs ++ [req])
    have hnone : ∀ o ∈ v.log, ∀ r, o.window ≠ some r := fun o ho r hr => by
      rw [(hlog o ho).1] at hr
      cases hr
    have hv : v.limiter = .start := hstart
    refine ⟨hv ▸ RateLimiter.sound_start, fun e he => ?_, fun key b hb => ?_, fun address r => ?_,
      fun token r => ?_, fun hpos => absurd hpos (by omega), fun o ho o' _ _ r r' hr =>
      absurd hr (hnone o ho r), fun token _ hrefused => ?_⟩
    · rw [hv] at he
      cases he
    · rw [hv] at hb
      cases hb
    · exact (List.countP_eq_zero.2 fun o ho hd =>
        hnone o ho r (of_decide_eq_true hd).2.2.1).trans_le (Nat.zero_le _)
    · exact (List.countP_eq_zero.2 fun o ho hd =>
        hnone o ho r (of_decide_eq_true hd).2.1).trans_le (Nat.zero_le _)
    · rw [rateLimit, if_pos hzero] at hrefused
      cases hrefused
  · rw [List.map_append, List.pairwise_append] at hclock
    obtain ⟨hs, hfair⟩ := serve_fair (H := H) hlimit hclock.1 fun q hq =>
      hclock.2.2 _ (List.mem_map_of_mem hq) req.now (by simp)
    obtain ⟨hs', hlive', hfair'⟩ := ServedRun.serveOne_fair hlimit hfair hs
    have hv : v = serveOne cfg H (serve cfg H reqs) req := serve_append cfg H reqs req
    rw [hv]
    refine ⟨hs', hlive', fun key b hb => (hfair'.counts key b hb).2, fun address r => ?_,
      fun token r => ?_, fun _ o ho hpass => ?_, fun o ho o' ho' hident => ?_,
      fun token htoken hrefused hfree => hfair.own_count hlimit hs htoken hrefused hfree⟩
    · refine le_trans (List.countP_mono_left fun o _ hd => ?_)
        (hfair'.limited (bucketKey H ("a:" ++ address)) r)
      obtain ⟨hanon, rfl, hwindow, hpass⟩ := of_decide_eq_true hd
      have hkey : keyOf cfg H o.req = bucketKey H ("a:" ++ sourceAddress o.req) := by
        rw [keyOf, identOf, hanon]
      exact Bool.and_eq_true_iff.2 ⟨countedAt_iff.2 ⟨hkey, hwindow⟩, hpass⟩
    · refine le_trans (List.countP_mono_left fun o _ hd => ?_)
        (hfair'.limited (bucketKey H ("k:" ++ token)) r)
      obtain ⟨htoken, hwindow, hpass⟩ := of_decide_eq_true hd
      have hkey : keyOf cfg H o.req = bucketKey H ("k:" ++ token) := by
        rw [keyOf, identOf, htoken]
      exact Bool.and_eq_true_iff.2 ⟨countedAt_iff.2 ⟨hkey, hwindow⟩, hpass⟩
    · obtain ⟨r, hr⟩ := Option.isSome_iff_exists.1 (hfair'.passes o ho hpass)
      exact ⟨r, hr, hfair'.span o ho r hr⟩
    · exact hfair'.apart o ho o' ho' (by rw [keyOf, keyOf, hident])

/-- A limiter of one request for each second, one anonymous address and one key. -/
def sampleRate : RateConfig where
  limit := 1
  windowMs := 1000
  maxAnonBuckets := 1
  isCredential := fun token => token == "key"
  windowMs_pos := by decide

/-- A junk token, another address and the key holder, who comes twice. -/
def sampleRequests : List ApiRequest :=
  [⟨0, some "Bearer junk", some "10.0.0.1", none⟩, ⟨1, none, none, some "10.0.0.2"⟩,
    ⟨2, some "Bearer key", some "10.0.0.1", none⟩]

/-- The key holder is refused for the second request. -/
theorem rateLimit_invariant_sample :
    (∃ r, (3 : ℤ) < r ∧ 1 < (serve sampleRate sampleHost
      (sampleRequests ++ [⟨3, some "Bearer key", some "10.0.0.9", none⟩])).log.countP fun o =>
        decide (acceptedToken sampleRate o.req = some "key" ∧ o.window = some r)) ∧
    ((serve sampleRate sampleHost
      (sampleRequests ++ [⟨3, some "Bearer key", some "10.0.0.9", none⟩])).log.map fun o =>
        o.answer.passed) = [true, false, true, false] := by
  have h := rateLimit_invariant sampleRate sampleHost sampleRequests
    ⟨3, some "Bearer key", some "10.0.0.9", none⟩ (by decide)
  refine ⟨h.2.2.2.2.2.2.2 "key" (by decide) (by decide) ?_, by decide⟩
  have hkeys : (([utf8 "a:10.0.0.1", utf8 "a:10.0.0.2", utf8 "k:key"] : List Bytes).map
      sampleHash).Nodup := by decide
  have hmem : ∀ o ∈ (serve sampleRate sampleHost
      (sampleRequests ++ [⟨3, some "Bearer key", some "10.0.0.9", none⟩])).log,
      utf8 (identOf sampleRate o.req) ∈ [utf8 "a:10.0.0.1", utf8 "a:10.0.0.2", utf8 "k:key"] := by
    decide
  rintro _ ⟨o, ho, rfl⟩ _ ⟨o', ho', rfl⟩ he
  exact List.inj_on_of_nodup_map hkeys (hmem o ho) (hmem o' ho') he

end XChainSdk
