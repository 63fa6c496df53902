import Mathlib.Logic.Function.Basic
import LlmPort.Text.Replace
import LlmPort.Transition.Run
import LlmPort.Transition.RunningTotal

/-!
# Rate limits

`services/gateway/ratelimit.py` on `services/cache/redis.py`: each check reads the clock, adds to
the counter of its window and, where it was the first to do so, gives the counter a time to live.
These are separate operations, and those of all requests interleave.
-/

namespace LlmPort.Gateway

open Text Transition

structure RateLimitResult where
  allowed : Bool
  current : Int
  limit : Int
  retryAfterSec : Nat
  deriving DecidableEq

inductive LimitKind where
  | rpm | tpm
  deriving DecidableEq

/-- `key_prefix` -/
def LimitKind.keyHead : LimitKind → String
  | rpm => "ratelimit:rpm"
  | tpm => "ratelimit:tpm"

def rateKey (kind : LimitKind) (subject : String) (bucket : Nat) : List Char :=
  kind.keyHead.toList ++ ':' :: (subject.toList ++ ':' :: Nat.toDigits 10 bucket)

/-- The counters, a missing one as 0, and the instants at which they lapse, in milliseconds. -/
structure RateCache where
  counter : List Char → Int
  expiresAt : List Char → Option Nat

namespace RateCache

def empty : RateCache := ⟨fun _ => 0, fun _ => none⟩

/-- `INCRBY` -/
def incrby (c : RateCache) (key : List Char) (amount : Int) : RateCache × Int :=
  ({ c with counter := Function.update c.counter key (c.counter key + amount) },
    c.counter key + amount)

/-- `EXPIRE` at an instant. -/
def expire (c : RateCache) (key : List Char) (ttlSec clock : Nat) : RateCache :=
  if c.counter key = 0 then c
  else { c with expiresAt := Function.update c.expiresAt key (some (clock + ttlSec * 1000)) }

/-- The key has lapsed by an instant. -/
def lapsed (c : RateCache) (clock : Nat) (key : List Char) : Bool :=
  (c.expiresAt key).any (· ≤ clock)

/-- What is left at an instant. -/
def lapse (c : RateCache) (clock : Nat) : RateCache where
  counter key := if c.lapsed clock key then 0 else c.counter key
  expiresAt key := if c.lapsed clock key then none else c.expiresAt key

end RateCache

/-- What a check of a request depends on; `none` is no limit. -/
structure RateRequest where
  tenantId : String
  estimatedTokens : Int

/-- The limits of the tenants' policies. -/
structure RateLimits where
  limit : LimitKind → String → Option Int

/-- Where a request is in `_check_limits`. -/
inductive CheckPoint where
  | check (kind : LimitKind)
  | incr (kind : LimitKind) (bucket ttl : Nat)
  | expire (kind : LimitKind) (bucket ttl : Nat) (result : RateLimitResult)
  | admitted
  | rejected (kind : LimitKind)

/-- A check that has incremented its counter: when it did, and what it was told. -/
structure CheckRecord where
  request : Nat
  kind : LimitKind
  tenantId : String
  bucket : Nat
  amount : Int
  clock : Nat
  result : RateLimitResult

/-- The requests of a gateway in the middle of their checks; the clock counts milliseconds. -/
structure RateRun where
  clock : Nat
  cache : RateCache
  point : Nat → CheckPoint
  log : List CheckRecord

inductive RateEvent where
  | tick (ms : Nat)
  /-- A request makes its next step. -/
  | proceed (request : Nat)

def windowSec : Nat := 60

/-- The instant at which a window ends. -/
def windowEnd (bucket : Nat) : Nat := (bucket + 1) * windowSec * 1000

namespace RateRun

variable (limits : RateLimits) (requests : Nat → RateRequest)

def initial (clock : Nat) : RateRun := ⟨clock, .empty, fun _ => .check .rpm, []⟩

def checkAmount (req : RateRequest) : LimitKind → Int
  | .rpm => 1
  | .tpm => max req.estimatedTokens 1

/-- After a check that lets the request pass. -/
def passed : LimitKind → CheckPoint
  | .rpm => .check .tpm
  | .tpm => .admitted

/-- After a check. -/
def concluded (kind : LimitKind) (result : RateLimitResult) : CheckPoint :=
  if result.allowed then passed kind else .rejected kind

def setPoint (s : RateRun) (i : Nat) (p : CheckPoint) : RateRun :=
  { s with point := Function.update s.point i p }

/-- The first half of `_check`: the window and what is left of it. -/
def readClock (s : RateRun) (i : Nat) (kind : LimitKind) : RateRun :=
  match (limits.limit kind (requests i).tenantId).filter (0 < ·) with
  | none => s.setPoint i (passed kind)
  | some _ =>
    let now := s.clock / 1000
    s.setPoint i (.incr kind (now / windowSec) (max (windowSec - now % windowSec) 1))

/-- The increment and the comparison. -/
def increment (s : RateRun) (i : Nat) (kind : LimitKind) (bucket ttl : Nat) : RateRun :=
  let req := requests i
  let amount := checkAmount req kind
  let limit := (limits.limit kind req.tenantId).getD 0
  let (cache, current) := s.cache.incrby (rateKey kind req.tenantId bucket) amount
  let allowed := decide (current ≤ limit)
  let result : RateLimitResult := ⟨allowed, current, limit, if allowed then 0 else ttl⟩
  let record : CheckRecord := ⟨i, kind, req.tenantId, bucket, amount, s.clock, result⟩
  let s := { s with cache := cache, log := s.log ++ [record] }
  s.setPoint i (if current = amount ∧ 0 < ttl then .expire kind bucket ttl result
    else concluded kind result)

def setExpiry (s : RateRun) (i : Nat) (kind : LimitKind) (bucket ttl : Nat)
    (result : RateLimitResult) : RateRun :=
  { s with
    cache := s.cache.expire (rateKey kind (requests i).tenantId bucket) ttl s.clock }.setPoint i
      (concluded kind result)

def step (s : RateRun) : RateEvent → RateRun
  | .tick ms => { s with clock := s.clock + ms, cache := s.cache.lapse (s.clock + ms) }
  | .proceed i => match s.point i with
    | .check kind => s.readClock limits requests i kind
    | .incr kind bucket ttl => s.increment limits requests i kind bucket ttl
    | .expire kind bucket ttl result => s.setExpiry requests i kind bucket ttl result
    | .admitted => s
    | .rejected _ => s

end RateRun

/-- The check belongs to a tenant's window, and incremented its counter before the window ended. -/
def CheckRecord.Within (kind : LimitKind) (tenantId : String) (bucket : Nat) (r : CheckRecord) :
    Prop :=
  r.kind = kind ∧ r.tenantId = tenantId ∧ r.bucket = bucket ∧ r.clock < windowEnd bucket

instance (kind : LimitKind) (tenantId : String) (bucket : Nat) :
    DecidablePred (CheckRecord.Within kind tenantId bucket) :=
  fun _ => inferInstanceAs (Decidable (_ ∧ _))

/-- The checks of a tenant within one window, in the order of their increments. -/
def RateRun.checks (s : RateRun) (kind : LimitKind) (tenantId : String) (bucket : Nat) :
    List CheckRecord :=
  s.log.filter (CheckRecord.Within kind tenantId bucket ·)

/-- The amounts of the checks that let their request pass. -/
def RateRun.admittedAmounts (s : RateRun) (kind : LimitKind) (tenantId : String) (bucket : Nat) :
    List Int :=
  ((s.checks kind tenantId bucket).filter (·.result.allowed)).map (·.amount)

/-! ## Keys -/

theorem LimitKind.keyHead_length (kind : LimitKind) : kind.keyHead.toList.length = 13 := by
  cases kind <;> decide

theorem LimitKind.keyHead_inj {kind kind' : LimitKind}
    (h : kind.keyHead.toList = kind'.keyHead.toList) : kind = kind' := by
  have hs := String.toList_injective h
  cases kind <;> cases kind' <;> first | rfl | exact absurd hs (by decide)

theorem rateKey_inj {kind kind' : LimitKind} {subject subject' : String} {bucket bucket' : Nat} :
    rateKey kind subject bucket = rateKey kind' subject' bucket' ↔
      kind = kind' ∧ subject = subject' ∧ bucket = bucket' := by
  refine ⟨fun h => ?_, fun ⟨h1, h2, h3⟩ => by rw [h1, h2, h3]⟩
  have hcolon (n : Nat) : ':' ∉ Nat.toDigits 10 n := fun hm => by
    have hdigit := Nat.isDigit_of_mem_toDigits (by decide) (by decide) hm
    cases hdigit
  unfold rateKey at h
  obtain ⟨hkind, htail⟩ := List.append_inj h
    (kind.keyHead_length.trans kind'.keyHead_length.symm)
  obtain ⟨hsubject, hbucket⟩ := append_cons_inj (hcolon _) (hcolon _) (List.cons.inj htail).2
  have hn := congrArg (fun digits => Nat.ofDigitChars 10 digits 0) hbucket
  exact ⟨LimitKind.keyHead_inj hkind, String.toList_injective hsubject, by simpa using hn⟩

/-! ## What the counters hold -/

/-- The time to live a check has read reaches to the end of its window. -/
def CheckPoint.Reaches (clock : Nat) : CheckPoint → Prop
  | .incr _ bucket ttl => windowEnd bucket ≤ clock + ttl * 1000
  | .expire _ bucket ttl _ => windowEnd bucket ≤ clock + ttl * 1000
  | _ => True

/-- While its window lasts a counter is the sum of what was added to it, and each check was told
the sum up to its own amount. -/
structure Counting (limits : RateLimits) (s : RateRun) : Prop where
  current_eq : ∀ kind tenantId bucket,
    (s.checks kind tenantId bucket).map (·.result.current) =
      totals 0 ((s.checks kind tenantId bucket).map (·.amount))
  counter_eq : ∀ kind tenantId bucket, s.clock < windowEnd bucket →
    s.cache.counter (rateKey kind tenantId bucket) =
      ((s.checks kind tenantId bucket).map (·.amount)).sum
  expiresAt_ge : ∀ kind tenantId bucket expiry,
    s.cache.expiresAt (rateKey kind tenantId bucket) = some expiry → windowEnd bucket ≤ expiry
  reaches : ∀ i, (s.point i).Reaches s.clock
  amount_eq : ∀ r ∈ s.log, r.kind = .rpm → r.amount = 1
  amount_pos : ∀ r ∈ s.log, 0 < r.amount
  allowed_eq : ∀ r ∈ s.log, r.result.allowed =
    decide (r.result.current ≤ (limits.limit r.kind r.tenantId).getD 0)

variable {limits : RateLimits} {requests : Nat → RateRequest} {s : RateRun} {i : Nat}
  {kind : LimitKind} {bucket ttl : Nat} {result : RateLimitResult}

theorem CheckPoint.Reaches.mono {p : CheckPoint} {clock clock' : Nat} (hle : clock ≤ clock')
    (h : p.Reaches clock) : p.Reaches clock' := by
  cases p with
  | incr kind bucket ttl => exact Nat.le_trans h (Nat.add_le_add_right hle _)
  | expire kind bucket ttl result => exact Nat.le_trans h (Nat.add_le_add_right hle _)
  | check kind => trivial
  | admitted => trivial
  | rejected kind => trivial

theorem reaches_concluded (clock : Nat) : (RateRun.concluded kind result).Reaches clock := by
  unfold RateRun.concluded RateRun.passed
  cases kind <;> split <;> trivial

/-- What is left of a window reaches to its end. -/
theorem windowEnd_le (clock : Nat) : windowEnd (clock / 1000 / windowSec) ≤
    clock + max (windowSec - clock / 1000 % windowSec) 1 * 1000 := by
  unfold windowEnd windowSec
  omega

theorem RateCache.not_lapsed {c : RateCache} {key : List Char} {clock stop : Nat}
    (h : ∀ expiry, c.expiresAt key = some expiry → stop ≤ expiry) (hclock : clock < stop) :
    c.lapsed clock key = false := by
  unfold lapsed
  cases hexp : c.expiresAt key with
  | none => rfl
  | some expiry =>
    have hle := h expiry hexp
    simp only [Option.any_some, decide_eq_false_iff_not]
    omega

/-- The counter a check has incremented. -/
def CheckRecord.key (r : CheckRecord) : List Char := rateKey r.kind r.tenantId r.bucket

/-- The increment of a check, by what it leaves behind. -/
def RateRun.counted (s : RateRun) (r : CheckRecord) : RateRun :=
  { s with cache := (s.cache.incrby r.key r.amount).1, log := s.log ++ [r] }

/-- The record an increment leaves behind. -/
def RateRun.newRecord (limits : RateLimits) (requests : Nat → RateRequest) (s : RateRun) (i : Nat)
    (kind : LimitKind) (bucket ttl : Nat) : CheckRecord :=
  let current := s.cache.counter (rateKey kind (requests i).tenantId bucket) +
    checkAmount (requests i) kind
  let limit := (limits.limit kind (requests i).tenantId).getD 0
  { request := i
    kind
    tenantId := (requests i).tenantId
    bucket
    amount := checkAmount (requests i) kind
    clock := s.clock
    result := ⟨decide (current ≤ limit), current, limit,
      if decide (current ≤ limit) then 0 else ttl⟩ }

theorem increment_eq : s.increment limits requests i kind bucket ttl =
    (s.counted (s.newRecord limits requests i kind bucket ttl)).setPoint i
      (if (s.newRecord limits requests i kind bucket ttl).result.current =
          RateRun.checkAmount (requests i) kind ∧ 0 < ttl then
        .expire kind bucket ttl (s.newRecord limits requests i kind bucket ttl).result
      else RateRun.concluded kind (s.newRecord limits requests i kind bucket ttl).result) := rfl

namespace Counting

theorem initial (clock : Nat) : Counting limits (RateRun.initial clock) where
  current_eq _ _ _ := rfl
  counter_eq _ _ _ _ := rfl
  expiresAt_ge _ _ _ _ h := nomatch h
  reaches _ := trivial
  amount_eq _ h := nomatch h
  amount_pos _ h := nomatch h
  allowed_eq _ h := nomatch h

theorem setPoint {p : CheckPoint} (H : Counting limits s) (hp : p.Reaches s.clock) :
    Counting limits (s.setPoint i p) where
  current_eq := H.current_eq
  counter_eq := H.counter_eq
  expiresAt_ge := H.expiresAt_ge
  reaches j := by
    change (Function.update s.point i p j).Reaches s.clock
    by_cases hj : j = i
    · subst hj
      rw [Function.update_self]
      exact hp
    · rw [Function.update_of_ne hj]
      exact H.reaches j
  amount_eq := H.amount_eq
  amount_pos := H.amount_pos
  allowed_eq := H.allowed_eq

theorem tick (H : Counting limits s) (ms : Nat) :
    Counting limits (s.step limits requests (.tick ms)) where
  current_eq := H.current_eq
  counter_eq kind tenantId bucket hclock := by
    change s.clock + ms < windowEnd bucket at hclock
    have hlt : s.clock < windowEnd bucket := Nat.lt_of_le_of_lt (Nat.le_add_right _ _) hclock
    have hkept := RateCache.not_lapsed (H.expiresAt_ge kind tenantId bucket) hclock
    change (s.cache.lapse (s.clock + ms)).counter (rateKey kind tenantId bucket) = _
    unfold RateCache.lapse
    simp only [hkept]
    exact H.counter_eq kind tenantId bucket hlt
  expiresAt_ge kind tenantId bucket expiry h := by
    change (s.cache.lapse (s.clock + ms)).expiresAt (rateKey kind tenantId bucket) = _ at h
    unfold RateCache.lapse at h
    dsimp only at h
    split at h
    · cases h
    · exact H.expiresAt_ge kind tenantId bucket expiry h
  reaches j := (H.reaches j).mono (Nat.le_add_right _ _)
  amount_eq := H.amount_eq
  amount_pos := H.amount_pos
  allowed_eq := H.allowed_eq

theorem readClock (H : Counting limits s) :
    Counting limits (s.readClock limits requests i kind) := by
  unfold RateRun.readClock
  split
  · apply H.setPoint
    cases kind <;> trivial
  · exact H.setPoint (windowEnd_le s.clock)

theorem setExpiry (H : Counting limits s) (hreach : windowEnd bucket ≤ s.clock + ttl * 1000) :
    Counting limits (s.setExpiry requests i kind bucket ttl result) := by
  refine setPoint ?_ (reaches_concluded _)
  unfold RateCache.expire
  split
  · exact H
  · refine ⟨H.current_eq, H.counter_eq, fun kind' tenantId bucket' expiry h => ?_, H.reaches,
      H.amount_eq, H.amount_pos, H.allowed_eq⟩
    by_cases hkey : rateKey kind' tenantId bucket' = rateKey kind (requests i).tenantId bucket
    · obtain ⟨-, -, hbucket⟩ := rateKey_inj.1 hkey
      simp only [hkey, Function.update_self, Option.some.injEq] at h
      rw [hbucket]
      omega
    · simp only [Function.update_of_ne hkey] at h
      exact H.expiresAt_ge kind' tenantId bucket' expiry h

theorem checks_counted {r : CheckRecord} {kind' : LimitKind} {tenantId : String} {bucket' : Nat} :
    (s.counted r).checks kind' tenantId bucket' =
      s.checks kind' tenantId bucket' ++ if r.Within kind' tenantId bucket' then [r] else [] := by
  unfold RateRun.checks RateRun.counted
  rw [List.filter_append, List.filter_cons, List.filter_nil]
  simp only [decide_eq_true_eq]

/-- A record of the new sum, while its window lasts, makes the window one check longer. -/
theorem counted {r : CheckRecord} (H : Counting limits s) (hclock : r.clock = s.clock)
    (hcurrent : r.result.current = s.cache.counter r.key + r.amount) (hpos : 0 < r.amount)
    (hrpm : r.kind = .rpm → r.amount = 1)
    (hallowed : r.result.allowed =
      decide (r.result.current ≤ (limits.limit r.kind r.tenantId).getD 0)) :
    Counting limits (s.counted r) where
  current_eq kind tenantId bucket := by
    rw [checks_counted]
    split
    next hw =>
      obtain ⟨rfl, rfl, rfl, hlt⟩ := hw
      have hsum := H.counter_eq r.kind r.tenantId r.bucket (hclock ▸ hlt)
      rw [List.map_append, List.map_append, H.current_eq, List.map_cons, List.map_nil,
        List.map_cons, List.map_nil, totals_concat, hcurrent, CheckRecord.key, hsum, Int.zero_add]
    next =>
      rw [List.append_nil]
      exact H.current_eq kind tenantId bucket
  counter_eq kind tenantId bucket hlt := by
    have hsum := H.counter_eq kind tenantId bucket hlt
    rw [checks_counted]
    unfold RateRun.counted
    by_cases hkey : rateKey kind tenantId bucket = r.key
    · obtain ⟨hk, ht, hb⟩ := rateKey_inj.1 hkey
      have hw : r.Within kind tenantId bucket := ⟨hk.symm, ht.symm, hb.symm, hclock ▸ hlt⟩
      rw [if_pos hw, List.map_append, List.sum_append, ← hsum, hkey]
      simp [RateCache.incrby]
    · have hw : ¬ r.Within kind tenantId bucket := fun ⟨hk, ht, hb, _⟩ =>
        hkey (by rw [CheckRecord.key, hk, ht, hb])
      rw [if_neg hw, List.append_nil, ← hsum]
      exact Function.update_of_ne hkey _ _
  expiresAt_ge := H.expiresAt_ge
  reaches := H.reaches
  amount_eq r' h := by
    rcases List.mem_append.1 h with h | h
    · exact H.amount_eq r' h
    · rw [List.mem_singleton.1 h]
      exact hrpm
  amount_pos r' h := by
    rcases List.mem_append.1 h with h | h
    · exact H.amount_pos r' h
    · rw [List.mem_singleton.1 h]
      exact hpos
  allowed_eq r' h := by
    rcases List.mem_append.1 h with h | h
    · exact H.allowed_eq r' h
    · rw [List.mem_singleton.1 h]
      exact hallowed

theorem increment (H : Counting limits s) (hreach : windowEnd bucket ≤ s.clock + ttl * 1000) :
    Counting limits (s.increment limits requests i kind bucket ttl) := by
  rw [increment_eq]
  have hpos : 0 < RateRun.checkAmount (requests i) kind := by
    cases kind with
    | rpm => exact Int.one_pos
    | tpm => exact Int.lt_of_lt_of_le Int.one_pos (Int.le_max_right _ _)
  refine setPoint (H.counted rfl rfl hpos (fun hkind => ?_) rfl) ?_
  · cases kind with
    | rpm => rfl
    | tpm => cases hkind
  · split
    · exact hreach
    · exact reaches_concluded _

theorem step (H : Counting limits s) (e : RateEvent) :
    Counting limits (s.step limits requests e) := by
  cases e with
  | tick ms => exact H.tick ms
  | proceed i =>
    have hreach := H.reaches i
    unfold RateRun.step
    dsimp only
    split
    next => exact H.readClock
    next heq => exact H.increment (by rw [heq] at hreach; exact hreach)
    next heq => exact H.setExpiry (by rw [heq] at hreach; exact hreach)
    next => exact H
    next => exact H

end Counting

/-! ## What the requests are told -/

/-- The increment of a kind is still to come. -/
def CheckPoint.Pending : CheckPoint → LimitKind → Prop
  | .check .rpm, _ => True
  | .check .tpm, kind => kind = .tpm
  | .incr .rpm _ _, _ => True
  | .incr .tpm _ _, kind => kind = .tpm
  | .expire .rpm _ _ _, kind => kind = .tpm
  | _, _ => False

/-- Each request has one check of each kind, and its way on is what its checks were told. -/
structure Told (s : RateRun) : Prop where
  once : (s.log.map fun r => (r.request, r.kind)).Nodup
  not_pending : ∀ r ∈ s.log, ¬ (s.point r.request).Pending r.kind
  expire : ∀ i kind bucket ttl result, s.point i = .expire kind bucket ttl result →
    ∃ r ∈ s.log, r.request = i ∧ r.kind = kind ∧ r.result = result
  rejected : ∀ i kind, s.point i = .rejected kind →
    ∃ r ∈ s.log, r.request = i ∧ r.kind = kind ∧ r.result.allowed = false
  going_on : ∀ r ∈ s.log, r.result.allowed = false →
    s.point r.request = .rejected r.kind ∨
      ∃ bucket ttl, s.point r.request = .expire r.kind bucket ttl r.result

theorem concluded_of_allowed (h : result.allowed = true) :
    RateRun.concluded kind result = RateRun.passed kind := if_pos h

theorem concluded_of_not_allowed (h : result.allowed = false) :
    RateRun.concluded kind result = .rejected kind := if_neg (by simp [h])

theorem concluded_eq_rejected {kind' : LimitKind}
    (h : RateRun.concluded kind result = .rejected kind') :
    kind' = kind ∧ result.allowed = false := by
  cases ha : result.allowed with
  | true =>
    rw [concluded_of_allowed ha] at h
    cases kind <;> cases h
  | false =>
    rw [concluded_of_not_allowed ha] at h
    cases h
    exact ⟨rfl, rfl⟩

theorem concluded_ne_expire {kind' : LimitKind} {result' : RateLimitResult} :
    RateRun.concluded kind result ≠ .expire kind' bucket ttl result' := by
  unfold RateRun.concluded RateRun.passed
  cases kind <;> split <;> exact CheckPoint.noConfusion

/-- After a check of the requests' limit only that of the tokens' is to come. -/
theorem pending_concluded {kind' : LimitKind}
    (h : (RateRun.concluded kind result).Pending kind') : kind = .rpm ∧ kind' = .tpm := by
  unfold RateRun.concluded RateRun.passed at h
  cases kind with
  | rpm =>
    split at h
    · exact ⟨rfl, h⟩
    · exact h.elim
  | tpm => split at h <;> exact h.elim

namespace Told

theorem initial (clock : Nat) : Told (RateRun.initial clock) where
  once := List.nodup_nil
  not_pending _ h := nomatch h
  expire _ _ _ _ _ h := nomatch h
  rejected _ _ h := nomatch h
  going_on _ h := nomatch h

/-- A request moves on, and no check was added. -/
theorem setPoint {p : CheckPoint} (H : Told s)
    (hpending : ∀ kind, p.Pending kind → (s.point i).Pending kind)
    (hexpire : ∀ kind bucket ttl result, p ≠ .expire kind bucket ttl result)
    (hrejected : ∀ kind, p = .rejected kind →
      ∃ r ∈ s.log, r.request = i ∧ r.kind = kind ∧ r.result.allowed = false)
    (hgoing : ∀ r ∈ s.log, r.request = i → r.result.allowed = false → p = .rejected r.kind) :
    Told (s.setPoint i p) where
  once := H.once
  not_pending r hr := by
    change ¬ (Function.update s.point i p r.request).Pending r.kind
    by_cases hi : r.request = i
    · rw [hi, Function.update_self]
      exact fun h => H.not_pending r hr (hi ▸ hpending _ h)
    · rw [Function.update_of_ne hi]
      exact H.not_pending r hr
  expire j kind bucket ttl result h := by
    change Function.update s.point i p j = _ at h
    by_cases hj : j = i
    · rw [hj, Function.update_self] at h
      exact absurd h (hexpire _ _ _ _)
    · rw [Function.update_of_ne hj] at h
      exact H.expire j kind bucket ttl result h
  rejected j kind h := by
    change Function.update s.point i p j = _ at h
    by_cases hj : j = i
    · rw [hj, Function.update_self] at h
      rw [hj]
      exact hrejected kind h
    · rw [Function.update_of_ne hj] at h
      exact H.rejected j kind h
  going_on r hr ha := by
    change Function.update s.point i p r.request = _ ∨
      ∃ bucket ttl, Function.update s.point i p r.request = _
    by_cases hi : r.request = i
    · rw [hi, Function.update_self]
      exact .inl (hgoing r hr hi ha)
    · rw [Function.update_of_ne hi]
      exact H.going_on r hr ha

theorem readClock (H : Told s) (hpoint : s.point i = .check kind) :
    Told (s.readClock limits requests i kind) := by
  have hgoing : ∀ r ∈ s.log, r.request = i → ¬ r.result.allowed = false := by
    intro r hr hi ha
    rcases H.going_on r hr ha with h | ⟨bucket, ttl, h⟩
    · rw [hi, hpoint] at h
      cases h
    · rw [hi, hpoint] at h
      cases h
  unfold RateRun.readClock
  split
  · refine H.setPoint ?_ ?_ ?_ fun r hr hi ha => absurd ha (hgoing r hr hi)
    · rw [hpoint]
      cases kind with
      | rpm => exact fun _ _ => trivial
      | tpm => exact fun _ h => h.elim
    · cases kind <;> exact fun _ _ _ _ => CheckPoint.noConfusion
    · cases kind <;> exact fun _ => CheckPoint.noConfusion
  · refine H.setPoint ?_ (fun _ _ _ _ => CheckPoint.noConfusion) (fun _ => CheckPoint.noConfusion)
      fun r hr hi ha => absurd ha (hgoing r hr hi)
    rw [hpoint]
    cases kind with
    | rpm => exact fun _ _ => trivial
    | tpm => exact fun _ h => h

theorem setExpiry (H : Told s) (hpoint : s.point i = .expire kind bucket ttl result) :
    Told (s.setExpiry requests i kind bucket ttl result) := by
  obtain ⟨r, hr, hi, hkind, hresult⟩ := H.expire i kind bucket ttl result hpoint
  have H' : Told { s with
      cache := s.cache.expire (rateKey kind (requests i).tenantId bucket) ttl s.clock } :=
    ⟨H.once, H.not_pending, H.expire, H.rejected, H.going_on⟩
  refine H'.setPoint (fun kind' h => ?_) (fun _ _ _ _ => concluded_ne_expire) (fun kind' h => ?_)
    fun r' hr' hi' ha => ?_
  · obtain ⟨rfl, rfl⟩ := pending_concluded h
    change (s.point i).Pending .tpm
    rw [hpoint]
    rfl
  · obtain ⟨rfl, ha⟩ := concluded_eq_rejected h
    exact ⟨r, hr, hi, hkind, hresult ▸ ha⟩
  · rcases H.going_on r' hr' ha with h | ⟨bucket', ttl', h⟩
    · rw [hi', hpoint] at h
      cases h
    · rw [hi', hpoint] at h
      injection h with hk _ _ hres
      rw [hk]
      exact concluded_of_not_allowed (hres ▸ ha)

/-- A request is told the result of its increment, at once or after it has set the expiry. -/
theorem counted {r : CheckRecord} {p : CheckPoint} (H : Told s)
    (hpoint : s.point r.request = .incr r.kind bucket ttl)
    (hp : p = .expire r.kind bucket ttl r.result ∨ p = RateRun.concluded r.kind r.result) :
    Told ((s.counted r).setPoint r.request p) := by
  have hpending : ∀ kind, p.Pending kind → r.kind = .rpm ∧ kind = .tpm := by
    intro kind h
    rcases hp with rfl | rfl
    · cases hk : r.kind with
      | rpm => rw [hk] at h; exact ⟨rfl, h⟩
      | tpm => rw [hk] at h; exact h.elim
    · exact pending_concluded h
  have hself : (s.point r.request).Pending r.kind := by
    rw [hpoint]
    cases r.kind <;> trivial
  have hgoing : ∀ r' ∈ s.log, r'.request = r.request → ¬ r'.result.allowed = false := by
    intro r' hr' hi ha
    rcases H.going_on r' hr' ha with h | ⟨_, _, h⟩
    · rw [hi, hpoint] at h
      cases h
    · rw [hi, hpoint] at h
      cases h
  have hlog : ∀ {r'}, r' ∈ ((s.counted r).setPoint r.request p).log ↔ r' ∈ s.log ∨ r' = r := by
    intro r'
    change r' ∈ s.log ++ [r] ↔ _
    rw [List.mem_append, List.mem_singleton]
  have hother {j : Nat} (hj : j ≠ r.request) :
      ((s.counted r).setPoint r.request p).point j = s.point j :=
    Function.update_of_ne hj _ _
  have hnew : ((s.counted r).setPoint r.request p).point r.request = p :=
    Function.update_self ..
  refine ⟨?_, fun r' hr' => ?_, fun j kind' bucket' ttl' result' h => ?_, fun j kind' h => ?_,
    fun r' hr' ha => ?_⟩
  · change ((s.log ++ [r]).map _).Nodup
    rw [List.map_append, List.nodup_append]
    refine ⟨H.once, List.pairwise_singleton .., fun x hx y hy hxy => ?_⟩
    obtain ⟨r', hr', rfl⟩ := List.mem_map.1 hx
    rw [List.map_singleton, List.mem_singleton] at hy
    subst hy
    obtain ⟨hi, hk⟩ := Prod.mk.inj hxy
    exact H.not_pending r' hr' (by rw [hi, hk]; exact hself)
  · rcases hlog.1 hr' with hr' | rfl
    · by_cases hi : r'.request = r.request
      · rw [hi, hnew]
        intro h
        obtain ⟨-, hk⟩ := hpending _ h
        apply H.not_pending r' hr'
        rw [hi, hpoint, hk]
        cases r.kind <;> trivial
      · rw [hother hi]
        exact H.not_pending r' hr'
    · rw [hnew]
      intro h
      obtain ⟨hk, hk'⟩ := hpending _ h
      rw [hk] at hk'
      cases hk'
  · by_cases hj : j = r.request
    · subst hj
      rw [hnew] at h
      rcases hp with rfl | rfl
      · injection h with hk _ _ hres
        exact ⟨r, hlog.2 (.inr rfl), rfl, hk, hres⟩
      · exact absurd h concluded_ne_expire
    · rw [hother hj] at h
      obtain ⟨r', hr', hi, hk, hres⟩ := H.expire j kind' bucket' ttl' result' h
      exact ⟨r', hlog.2 (.inl hr'), hi, hk, hres⟩
  · by_cases hj : j = r.request
    · subst hj
      rw [hnew] at h
      rcases hp with rfl | rfl
      · cases h
      · obtain ⟨hk, ha⟩ := concluded_eq_rejected h
        exact ⟨r, hlog.2 (.inr rfl), rfl, hk.symm, ha⟩
    · rw [hother hj] at h
      obtain ⟨r', hr', hi, hk, ha⟩ := H.rejected j kind' h
      exact ⟨r', hlog.2 (.inl hr'), hi, hk, ha⟩
  · rcases hlog.1 hr' with hr' | rfl
    · have hi : r'.request ≠ r.request := fun hi => hgoing r' hr' hi ha
      rw [hother hi]
      exact H.going_on r' hr' ha
    · rw [hnew]
      rcases hp with rfl | rfl
      · exact .inr ⟨bucket, ttl, rfl⟩
      · exact .inl (concluded_of_not_allowed ha)

theorem step (H : Told s) (e : RateEvent) : Told (s.step limits requests e) := by
  cases e with
  | tick ms => exact ⟨H.once, H.not_pending, H.expire, H.rejected, H.going_on⟩
  | proceed i =>
    unfold RateRun.step
    dsimp only
    split
    next kind heq => exact H.readClock heq
    next kind bucket ttl heq =>
      rw [increment_eq]
      refine H.counted (r := s.newRecord limits requests i kind bucket ttl) heq ?_
      split
      · exact .inl rfl
      · exact .inr rfl
    next heq => exact H.setExpiry heq
    next => exact H
    next => exact H

end Told

/-- In every run, for every tenant and every window: of the checks of its requests, in the order
of their increments, the first as many as the limit allows pass, one for each request; and what
the token checks let pass stays within their limit. A request is rejected where one of its checks
was told so, and admitted only where none was. -/
theorem limits_hold (limits : RateLimits) (requests : Nat → RateRequest) (clock : Nat)
    (es : List RateEvent) (tenantId : String) (bucket : Nat) :
    let s := run (RateRun.step limits requests) (RateRun.initial clock) es
    (∀ limit, 0 < limit → limits.limit .rpm tenantId = some limit →
      ((s.checks .rpm tenantId bucket).map (·.request)).Nodup ∧
      (s.checks .rpm tenantId bucket).map (·.result.allowed) =
        List.replicate (min (s.checks .rpm tenantId bucket).length limit.toNat) true ++
          List.replicate ((s.checks .rpm tenantId bucket).length - limit.toNat) false) ∧
    (∀ limit, 0 < limit → limits.limit .tpm tenantId = some limit →
      (s.admittedAmounts .tpm tenantId bucket).sum ≤ limit) ∧
    (∀ i kind, s.point i = .rejected kind →
      ∃ r ∈ s.log, r.request = i ∧ r.kind = kind ∧ r.result.allowed = false) ∧
    ∀ i, s.point i = .admitted → ∀ r ∈ s.log, r.request = i → r.result.allowed = true := by
  intro s
  have hcount : Counting limits s := run_invariant (fun _ e H => H.step e) (.initial clock)
  have htold : Told s := run_invariant (fun _ e H => H.step e) (.initial clock)
  have hmem {kind : LimitKind} {r : CheckRecord} (hr : r ∈ s.checks kind tenantId bucket) :
      r ∈ s.log ∧ r.kind = kind ∧ r.tenantId = tenantId := by
    obtain ⟨hlog, hw⟩ := List.mem_filter.1 hr
    obtain ⟨hk, ht, -⟩ := of_decide_eq_true hw
    exact ⟨hlog, hk, ht⟩
  have hallowed {kind : LimitKind} {limit : Int}
      (hlimit : limits.limit kind tenantId = some limit) :
      ∀ r ∈ s.checks kind tenantId bucket,
        r.result.allowed = decide (r.result.current ≤ limit) := by
    intro r hr
    obtain ⟨hlog, hk, ht⟩ := hmem hr
    rw [hcount.allowed_eq r hlog, hk, ht, hlimit, Option.getD_some]
  refine ⟨fun limit _ hlimit => ⟨?_, ?_⟩, fun limit hpos hlimit => ?_, htold.rejected,
    fun i hi r hr hreq => ?_⟩
  · have hsub : (s.checks .rpm tenantId bucket).Sublist s.log := List.filter_sublist
    have honce := htold.once.sublist (hsub.map fun r => (r.request, r.kind))
    refine List.pairwise_map.2 ((List.pairwise_map.1 honce).imp_of_mem ?_)
    intro r r' hr hr' hne heq
    exact hne (Prod.ext heq ((hmem hr).2.1.trans (hmem hr').2.1.symm))
  · have hone : ∀ r ∈ s.checks .rpm tenantId bucket, r.amount = 1 := fun r hr =>
      hcount.amount_eq r (hmem hr).1 (hmem hr).2.1
    have hroom : limit.toNat = (limit - 0).toNat := by rw [Int.sub_zero]
    rw [List.map_congr_left (hallowed hlimit), hroom]
    exact within_of_units hone (hcount.current_eq .rpm tenantId bucket)
  · have hnonneg : ∀ r ∈ s.checks .tpm tenantId bucket, 0 ≤ r.amount := fun r hr =>
      Int.le_of_lt (hcount.amount_pos r (hmem hr).1)
    have hroom : max 0 (limit - 0) ≤ limit := by omega
    unfold RateRun.admittedAmounts
    rw [List.filter_congr (hallowed hlimit)]
    exact Int.le_trans (sum_within_le hnonneg (hcount.current_eq .tpm tenantId bucket)) hroom
  · by_contra hne
    rcases htold.going_on r hr (Bool.eq_false_iff.2 hne) with h | ⟨_, _, h⟩
    · rw [hreq, hi] at h
      cases h
    · rw [hreq, hi] at h
      cases h

end LlmPort.Gateway
