import Mathlib.Logic.Function.Basic
import Mathlib.Data.Rat.Defs
import Mathlib.Algebra.Order.Ring.Rat
import Mathlib.Data.Prod.Lex
import Mathlib.Data.String.Basic
import Mathlib.Data.List.Sort

/-!
# Leases and routing

The two Lua scripts of `services/gateway/lease.py` on the keys they touch, the lease manager, and
the order in which `pick_and_lease` of `routing.py` tries the candidates of an alias.
-/

namespace LlmPort.Gateway

/-- The text of an instance's id. -/
abbrev InstanceId := String

abbrev RequestId := String

/-- The database the scripts run in: the counter keys, a missing one as 0, and the live text
keys. -/
structure Redis where
  counter : String → Int
  text : String → Option String

namespace Redis

def empty : Redis := ⟨fun _ => 0, fun _ => none⟩

/-- `_ACQUIRE_LUA` -/
def acquireLua (r : Redis) (activeKey leaseKey requestId : String) (maxConcurrency : Int) :
    Redis × Int :=
  let current := r.counter activeKey
  if current ≥ maxConcurrency then (r, 0)
  else
    ({ counter := Function.update r.counter activeKey (current + 1)
       text := Function.update r.text leaseKey (some requestId) }, 1)

/-- `_RELEASE_LUA` -/
def releaseLua (r : Redis) (activeKey leaseKey : String) : Redis × Int :=
  if (r.text leaseKey).isSome then
    let r := { r with text := Function.update r.text leaseKey none }
    let current := r.counter activeKey
    if current > 0 then
      ({ r with counter := Function.update r.counter activeKey (current - 1) }, 1)
    else (r, 1)
  else (r, 0)

/-- The time to live of a text key runs out. -/
def expire (r : Redis) (key : String) : Redis := { r with text := Function.update r.text key none }

end Redis

namespace LeaseManager

def activeKey (instanceId : InstanceId) : String := "llm:active:" ++ instanceId

def leaseKey (requestId : RequestId) : String := "llm:lease:" ++ requestId

theorem activeKey_inj {i j : InstanceId} : activeKey i = activeKey j ↔ i = j := by
  simp [activeKey, String.append_right_inj]

def tryAcquire (r : Redis) (instanceId : InstanceId) (requestId : RequestId)
    (maxConcurrency : Int) :
    Redis × Bool :=
  let (r, result) :=
    r.acquireLua (activeKey instanceId) (leaseKey requestId) requestId (max maxConcurrency 1)
  (r, result = 1)

def release (r : Redis) (instanceId : InstanceId) (requestId : RequestId) : Redis :=
  (r.releaseLua (activeKey instanceId) (leaseKey requestId)).1

end LeaseManager

/-- A candidate as `resolve_candidates` builds it. -/
structure RoutedInstance where
  instanceId : InstanceId
  weight : ℚ
  maxConcurrency : Int
  one_le : 1 ≤ maxConcurrency
  deriving DecidableEq

/-- The candidate of an instance row. -/
def RoutedInstance.ofRow (instanceId : InstanceId) (weight : ℚ) (rowMaxConcurrency : Int) :
    RoutedInstance :=
  ⟨instanceId, weight, max rowMaxConcurrency 1, le_max_right _ _⟩

/-- The router, with the floating-point division it ranks loads by. -/
structure RouterService where
  trueDiv : Int → Int → ℚ

namespace RouterService

variable (router : RouterService)

/-- The key by which `pick_and_lease` sorts, for the counts it has read. -/
def loadKey (counts : InstanceId → Int) (c : RoutedInstance) : ℚ ×ₗ ℚ ×ₗ String :=
  toLex (router.trueDiv (counts c.instanceId) (max c.maxConcurrency 1), toLex (-c.weight, c.instanceId))

/-- The candidates in the order in which they are tried. -/
def ordered (r : Redis) (candidates : List RoutedInstance) : List RoutedInstance :=
  let counts := fun i => r.counter (LeaseManager.activeKey i)
  candidates.insertionSort fun a b => router.loadKey counts a ≤ router.loadKey counts b

theorem mem_ordered {r : Redis} {candidates : List RoutedInstance} {c : RoutedInstance} :
    c ∈ router.ordered r candidates ↔ c ∈ candidates :=
  List.mem_insertionSort _

end RouterService

end LlmPort.Gateway
