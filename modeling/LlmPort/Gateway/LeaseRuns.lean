import LlmPort.Gateway.Lease
import LlmPort.Transition.Run
import LlmPort.Transition.Holding

/-!
# Runs of the lease manager

The gateway's requests acquire and release leases in any order, some in the loop of
`pick_and_lease`, which tries its candidates one by one in an order read off the counters when it
began. The leases a request holds, from an acquisition that succeeded to its release, are recorded
beside the database.
-/

namespace LlmPort.Gateway

open Transition LeaseManager

/-- A request, and the id it came with: distinct requests may have one id. -/
structure GatewayRequest where
  token : Nat
  id : RequestId
  deriving DecidableEq

structure LeaseSys where
  redis : Redis
  /-- The runs of `pick_and_lease`, each with the candidates it has not tried. -/
  picking : List (GatewayRequest × List RoutedInstance)
  holds : Holding GatewayRequest InstanceId

inductive LeaseEvent where
  | tryAcquire (req : GatewayRequest) (candidate : RoutedInstance)
  /-- `pick_and_lease` reads the counters and orders the candidates. -/
  | pick (req : GatewayRequest) (candidates : List RoutedInstance)
  /-- The `k`th run of `pick_and_lease` tries its next candidate. -/
  | next (k : Nat)
  | release (req : GatewayRequest) (instanceId : InstanceId)
  | expire (requestId : RequestId)

namespace LeaseSys

def fresh : LeaseSys := ⟨.empty, [], ∅⟩

def active (sys : LeaseSys) (instanceId : InstanceId) : Int :=
  sys.redis.counter (activeKey instanceId)

/-- The lease key of a request id is there. -/
def live (sys : LeaseSys) (requestId : RequestId) : Bool :=
  (sys.redis.text (leaseKey requestId)).isSome

/-- How many requests hold a lease on an instance. -/
def holders (sys : LeaseSys) (instanceId : InstanceId) : Nat := sys.holds.count instanceId

/-- One call of `try_acquire`. -/
def attempt (sys : LeaseSys) (req : GatewayRequest) (c : RoutedInstance) : LeaseSys × Bool :=
  let (redis, acquired) := LeaseManager.tryAcquire sys.redis c.instanceId req.id c.maxConcurrency
  ({ sys with redis, holds := if acquired then insert (req, c.instanceId) sys.holds else sys.holds },
    acquired)

/-- The call of `try_acquire` an event makes. -/
def attempted (sys : LeaseSys) : LeaseEvent → Option (GatewayRequest × RoutedInstance)
  | .tryAcquire req c => some (req, c)
  | .next k => sys.picking[k]?.bind fun x => x.2.head?.map fun c => (x.1, c)
  | _ => none

def step (router : RouterService) (sys : LeaseSys) : LeaseEvent → LeaseSys
  | .tryAcquire req c => (sys.attempt req c).1
  | .pick req candidates =>
    { sys with picking := sys.picking ++ [(req, router.ordered sys.redis candidates)] }
  | .next k => match sys.picking[k]? with
    | some (req, c :: rest) =>
      let (sys, acquired) := sys.attempt req c
      { sys with
        picking := if acquired then sys.picking.eraseIdx k else sys.picking.set k (req, rest) }
    -- no candidate is left: `no_capacity`
    | some (_, []) => { sys with picking := sys.picking.eraseIdx k }
    | none => sys
  | .release req instanceId =>
    { sys with
      redis := LeaseManager.release sys.redis instanceId req.id
      holds := sys.holds.erase (req, instanceId) }
  | .expire requestId => { sys with redis := sys.redis.expire (leaseKey requestId) }

/-- An attempt finds capacity. -/
def hasCapacity (sys : LeaseSys) (c : RoutedInstance) : Bool :=
  sys.active c.instanceId < max c.maxConcurrency 1

/-- A release of the request's lease on the instance decrements the counter. -/
def decrements (sys : LeaseSys) (req : GatewayRequest) (instanceId : InstanceId) : Bool :=
  sys.live req.id && 0 < sys.active instanceId

end LeaseSys

variable {router : RouterService} {sys : LeaseSys} {req : GatewayRequest} {c : RoutedInstance}
  {i j : InstanceId} {e : LeaseEvent}

open LeaseSys

theorem attempt_snd : (sys.attempt req c).2 = sys.hasCapacity c := by
  simp only [attempt, LeaseManager.tryAcquire, Redis.acquireLua, hasCapacity, active]
  split
  next h => simp [Int.not_lt.2 h]
  next h => simp [Int.not_le.1 h]

theorem attempt_active : (sys.attempt req c).1.active i =
    sys.active i + if sys.hasCapacity c ∧ c.instanceId = i then 1 else 0 := by
  simp only [attempt, LeaseManager.tryAcquire, Redis.acquireLua, hasCapacity, active]
  split
  next h => simp [Int.not_lt.2 h]
  next h =>
    simp only [Function.update_apply, activeKey_inj, Int.not_le.1 h, decide_true, true_and]
    by_cases hi : c.instanceId = i
    · subst hi
      simp
    · simp [hi, Ne.symm hi]

theorem attempt_holds : (sys.attempt req c).1.holds =
    if sys.hasCapacity c then insert (req, c.instanceId) sys.holds else sys.holds := by
  rw [← attempt_snd]
  rfl

theorem active_release :
    (sys.step router (.release req j)).active i =
      sys.active i - if sys.decrements req j ∧ j = i then 1 else 0 := by
  simp only [step, LeaseManager.release, Redis.releaseLua, decrements, live, active]
  split
  next hlive =>
    simp only [hlive, Bool.true_and]
    split
    next h =>
      simp only [Function.update_apply, activeKey_inj, h]
      by_cases hi : j = i
      · subst hi
        simp
      · simp [hi, Ne.symm hi]
    next h => simp [h]
  next hlive => simp [hlive]

/-- What an event does to the counters and the leases: it attempts an acquisition, releases a lease,
or leaves both alone. -/
inductive Effect (router : RouterService) (sys : LeaseSys) (e : LeaseEvent) : Prop
  | attempt (req : GatewayRequest) (c : RoutedInstance) (h : sys.attempted e = some (req, c))
      (hactive : ∀ i, (sys.step router e).active i =
        sys.active i + if sys.hasCapacity c ∧ c.instanceId = i then 1 else 0)
      (hholds : (sys.step router e).holds =
        if sys.hasCapacity c then insert (req, c.instanceId) sys.holds else sys.holds)
  | release (req : GatewayRequest) (j : InstanceId) (h : e = .release req j)
      (hactive : ∀ i, (sys.step router e).active i =
        sys.active i - if sys.decrements req j ∧ j = i then 1 else 0)
      (hholds : (sys.step router e).holds = sys.holds.erase (req, j))
  | other (h : sys.attempted e = none) (hr : ∀ req j, e ≠ .release req j)
      (hactive : ∀ i, (sys.step router e).active i = sys.active i)
      (hholds : (sys.step router e).holds = sys.holds)

theorem effect (router : RouterService) (sys : LeaseSys) (e : LeaseEvent) :
    Effect router sys e := by
  cases e with
  | tryAcquire req c => exact .attempt req c rfl (fun _ => attempt_active) attempt_holds
  | pick req candidates => exact .other rfl (fun _ _ h => nomatch h) (fun _ => rfl) rfl
  | next k =>
    cases hk : sys.picking[k]? with
    | none =>
      refine .other ?_ (fun _ _ h => nomatch h) ?_ ?_ <;> simp [attempted, step, hk]
    | some x =>
      obtain ⟨req, _ | ⟨c, rest⟩⟩ := x
      · refine .other ?_ (fun _ _ h => nomatch h) (fun i => ?_) ?_ <;>
          simp [attempted, step, hk, active]
      · refine .attempt req c ?_ (fun i => ?_) ?_
        · simp [attempted, hk]
        · rw [← attempt_active]
          simp only [step, hk]
          rfl
        · rw [← attempt_holds]
          simp only [step, hk]
  | release req j => exact .release req j rfl (fun _ => active_release) rfl
  | expire id => exact .other rfl (fun _ _ h => nomatch h) (fun _ => rfl) rfl

end LlmPort.Gateway
