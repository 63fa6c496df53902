import LlmPort.Gateway.LeaseRuns

/-!
# The counters and the leases

An instance's counter should be the number of requests that hold a lease on it. A lease key that has
expired before its release, or that belongs to another lease of the same request id, breaks this; so
does an acquisition of what the request holds already. The cap rests on the counter not falling
below the number of holders.
-/

namespace LlmPort.Gateway

open Transition LeaseManager LeaseSys

/-- Every counter is the number of requests that hold a lease on the instance. -/
def Accounts (sys : LeaseSys) : Prop := ∀ i, sys.active i = sys.holders i

/-- An acquisition that finds capacity is of a lease the request does not hold, and a release
decrements the counter exactly when the request holds the lease. -/
def keepsAccounts (sys : LeaseSys) (e : LeaseEvent) : Bool :=
  match sys.attempted e with
  | some (req, c) => !sys.hasCapacity c || (req, c.instanceId) ∉ sys.holds
  | none => match e with
    | .release req i => sys.decrements req i = ((req, i) ∈ sys.holds)
    | _ => true

variable {router : RouterService} {sys : LeaseSys} {e : LeaseEvent}

theorem accounts_attempt {sys' : LeaseSys} {req : GatewayRequest} {c : RoutedInstance}
    (h : Accounts sys)
    (hactive : ∀ i, sys'.active i = sys.active i + if sys.hasCapacity c ∧ c.instanceId = i then 1 else 0)
    (hholds : sys'.holds =
      if sys.hasCapacity c then insert (req, c.instanceId) sys.holds else sys.holds) :
    Accounts sys' ↔ (sys.hasCapacity c → (req, c.instanceId) ∉ sys.holds) := by
  cases hcap : sys.hasCapacity c with
  | false =>
    refine ⟨fun _ hc => (nomatch hc), fun _ i => ?_⟩
    rw [hactive, holders, hholds]
    simpa [hcap, holders] using h i
  | true =>
    simp only [hcap, if_true, true_and] at hactive hholds
    constructor
    · intro h' _ hmem
      have hi := h' c.instanceId
      rw [hactive, holders, hholds, Finset.insert_eq_of_mem hmem, if_pos rfl, h c.instanceId,
        holders] at hi
      omega
    · intro hmem i
      rw [hactive, holders, hholds, Holding.count_insert (hmem rfl), h i, holders]
      push_cast
      rfl

theorem accounts_release {sys' : LeaseSys} {req : GatewayRequest} {j : InstanceId}
    (h : Accounts sys)
    (hactive : ∀ i, sys'.active i = sys.active i - if sys.decrements req j ∧ j = i then 1 else 0)
    (hholds : sys'.holds = sys.holds.erase (req, j)) :
    Accounts sys' ↔ (sys.decrements req j ↔ (req, j) ∈ sys.holds) := by
  have hdiff (i : InstanceId) : sys'.active i = sys'.holders i ↔
      (if sys.decrements req j ∧ j = i then (1 : Int) else 0) =
        if (req, j) ∈ sys.holds ∧ j = i then 1 else 0 := by
    rw [hactive, holders, hholds, Holding.count_erase_eq, h i, holders]
    exact sub_right_inj
  constructor
  · intro h'
    have hj := (hdiff j).1 (h' j)
    by_cases hdec : sys.decrements req j <;> by_cases hmem : (req, j) ∈ sys.holds <;> simp_all
  · intro hiff i
    rw [hdiff i]
    simp only [hiff]

theorem accounts_step (h : Accounts sys) :
    Accounts (sys.step router e) ↔ keepsAccounts sys e := by
  cases effect router sys e with
  | attempt req c ha hactive hholds =>
    rw [accounts_attempt h hactive hholds]
    simp only [keepsAccounts, ha]
    cases sys.hasCapacity c <;> simp
  | release req j he hactive hholds =>
    subst he
    rw [accounts_release h hactive hholds]
    simp only [keepsAccounts, attempted, decide_eq_true_eq, eq_iff_iff]
  | other ha hr hactive hholds =>
    have hk : keepsAccounts sys e := by
      cases e with
      | release req i => exact absurd rfl (hr req i)
      | tryAcquire => cases ha
      | next => simp only [keepsAccounts, ha]
      | pick | expire => rfl
    refine ⟨fun _ => hk, fun _ i => ?_⟩
    rw [hactive, holders, hholds]
    exact h i

/-- From a state in which the counters are right, they are right in every state of a run exactly if
every step meets the guard. -/
theorem accounts_iff {es : List LeaseEvent} (h : Accounts sys) :
    Always (step router) Accounts sys es ↔
      Guarded (step router) (fun sys e => keepsAccounts sys e) sys es :=
  always_iff_guarded (fun _ _ => accounts_step) h

theorem accounts_fresh : Accounts .fresh := fun _ => rfl

/-- When no request holds a lease, right counters are 0. -/
theorem Accounts.active_eq_zero (h : Accounts sys) (hempty : sys.holds = ∅) (i : InstanceId) :
    sys.active i = 0 := by
  rw [h i, holders, hempty]
  rfl

/-- Exact division in place of the floating-point one. -/
def exactRouter : RouterService := ⟨fun a b => a / b⟩

def smallInstance (instanceId : InstanceId) : RoutedInstance := .ofRow instanceId 1 2

/-- Two requests with one id, one after the other, on two instances. -/
theorem accounts_oneAfterTheOther : Always (step exactRouter) Accounts .fresh
    [.pick ⟨1, "r"⟩ [smallInstance "a", smallInstance "b"], .next 0, .release ⟨1, "r"⟩ "a",
      .tryAcquire ⟨2, "r"⟩ (smallInstance "b"), .release ⟨2, "r"⟩ "b"] :=
  (accounts_iff accounts_fresh).2 (by decide +kernel)

/-- The lease key expires before the release: the counter stays at 1, and nobody holds a lease. -/
theorem not_accounts_expired : ¬ Accounts (run (step exactRouter) .fresh
    [.tryAcquire ⟨1, "r"⟩ (smallInstance "a"), .expire "r", .release ⟨1, "r"⟩ "a"]) := by
  intro h
  exact absurd (h "a") (by decide)

/-- No instance has more holders than its cap, and no counter is negative. -/
def WithinCaps (caps : InstanceId → Int) (sys : LeaseSys) : Prop :=
  ∀ i, sys.holders i ≤ caps i ∧ 0 ≤ sys.active i

/-- A release that decrements the counter is of a lease the request holds, or the counter exceeds
the number of holders. -/
def keepsCaps (sys : LeaseSys) : LeaseEvent → Bool
  | .release req i => !sys.decrements req i || (req, i) ∈ sys.holds || sys.holders i < sys.active i
  | _ => true

/-- The candidates an event brings. -/
def LeaseEvent.candidates : LeaseEvent → List RoutedInstance
  | .tryAcquire _ c => [c]
  | .pick _ candidates => candidates
  | _ => []

def Carries (caps : InstanceId → Int) (candidates : List RoutedInstance) : Prop :=
  ∀ c ∈ candidates, c.maxConcurrency = caps c.instanceId

instance {caps : InstanceId → Int} {candidates : List RoutedInstance} :
    Decidable (Carries caps candidates) := List.decidableBAll _ _

/-- What `keepsCaps` preserves. -/
structure Capped (caps : InstanceId → Int) (sys : LeaseSys) : Prop where
  covered : ∀ i, sys.holders i ≤ sys.active i
  capped : ∀ i, sys.active i ≤ caps i
  picking : ∀ x ∈ sys.picking, Carries caps x.2

variable {caps : InstanceId → Int}

theorem Capped.within (h : Capped caps sys) : WithinCaps caps sys := by
  intro i
  have hcov := h.covered i
  exact ⟨hcov.trans (h.capped i), (Int.natCast_nonneg _).trans hcov⟩

/-- The candidate an event attempts carries its cap. -/
theorem Capped.attempted (h : Capped caps sys) (hc : Carries caps e.candidates)
    {req : GatewayRequest} {c : RoutedInstance} (ha : sys.attempted e = some (req, c)) :
    c.maxConcurrency = caps c.instanceId := by
  cases e with
  | tryAcquire => cases ha; exact hc _ (List.mem_singleton_self _)
  | next k =>
    obtain ⟨⟨r, cs⟩, hk, hx⟩ := Option.bind_eq_some_iff.1 ha
    obtain ⟨c', hhead, e⟩ := Option.map_eq_some_iff.1 hx
    cases e
    exact h.picking _ (List.mem_of_getElem? hk) _ (List.mem_of_mem_head? hhead)
  | _ => cases ha

theorem Capped.step_picking (h : Capped caps sys) (hc : Carries caps e.candidates) :
    ∀ x ∈ (sys.step router e).picking, Carries caps x.2 := by
  cases e with
  | pick req candidates =>
    intro x hx
    rcases List.mem_append.1 hx with hx | hx
    · exact h.picking x hx
    · rw [List.mem_singleton.1 hx]
      exact fun c hm => hc c ((router.mem_ordered).1 hm)
  | next k =>
    simp only [step]
    split
    next req c rest hk =>
      have hold : Carries caps (c :: rest) := h.picking _ (List.mem_of_getElem? hk)
      intro x hx
      simp only at hx
      split at hx
      · exact h.picking x (List.mem_of_mem_eraseIdx hx)
      · rcases List.mem_or_eq_of_mem_set hx with hx | rfl
        · exact h.picking x hx
        · exact fun c hm => hold c (List.mem_cons_of_mem _ hm)
    next => exact fun x hx => h.picking x (List.mem_of_mem_eraseIdx hx)
    next => exact h.picking
  | _ => exact h.picking

theorem Capped.step (h : Capped caps sys) (hc : Carries caps e.candidates) (hg : keepsCaps sys e) :
    Capped caps (sys.step router e) := by
  have hpicking : ∀ x ∈ (sys.step router e).picking, Carries caps x.2 := h.step_picking hc
  cases effect router sys e with
  | attempt req c ha hactive hholds =>
    have hcap := h.attempted hc ha
    have hone := c.one_le
    refine ⟨fun i => ?_, fun i => ?_, hpicking⟩
    · have hcov := h.covered i
      rw [hactive, holders, hholds]
      simp only [holders] at hcov
      cases hcapacity : sys.hasCapacity c with
      | false => simpa using hcov
      | true =>
        have hle := Holding.count_insert_le (H := sys.holds) (x := (req, c.instanceId)) (r := i)
        simp only [if_true, true_and]
        split at hle <;> simp_all <;> omega
    · have hi := h.capped i
      rw [hactive]
      split
      next hcapacity =>
        obtain ⟨hcapacity, rfl⟩ := hcapacity
        have hlt : sys.active c.instanceId < max c.maxConcurrency 1 := of_decide_eq_true hcapacity
        omega
      next => omega
  | release req j he hactive hholds =>
    subst he
    refine ⟨fun i => ?_, fun i => ?_, hpicking⟩
    · have hcov := h.covered i
      rw [hactive, holders, hholds, Holding.count_erase_eq]
      simp only [holders] at hcov
      by_cases hdec : sys.decrements req j ∧ j = i
      · obtain ⟨hdec, rfl⟩ := hdec
        have hj : (req, j) ∈ sys.holds ∨ sys.holders j < sys.active j := by
          simpa [keepsCaps, hdec] using hg
        rcases hj with hj | hj
        · simp only [hdec, hj, and_self, if_true]
          omega
        · simp only [holders] at hj
          simp only [hdec, and_self, if_true]
          split <;> omega
      · rw [if_neg hdec]
        split <;> omega
    · have hi := h.capped i
      rw [hactive]
      split <;> omega
  | other ha hr hactive hholds =>
    refine ⟨fun i => ?_, fun i => ?_, hpicking⟩
    · rw [hactive, holders, hholds]
      exact h.covered i
    · rw [hactive]
      exact h.capped i

/-- The cap of each instance, from the column of its row. -/
def capOf (rows : InstanceId → Int) (i : InstanceId) : Int := max (rows i) 1

/-- When every candidate carries its instance's cap, no instance exceeds it in a run whose releases
meet the guard. -/
theorem withinCaps_of_keepsCaps {rows : InstanceId → Int} {es : List LeaseEvent}
    (hc : ∀ e ∈ es, Carries (capOf rows) e.candidates)
    (hg : Guarded (step router) (fun sys e => keepsCaps sys e) .fresh es) :
    Always (step router) (WithinCaps (capOf rows)) .fresh es := by
  refine (hg.and_events hc).always (I := Capped (capOf rows)) ?_ (fun sys h => h.within) ?_
  · exact fun sys e h hok => h.step hok.1 hok.2
  · refine ⟨fun _ => le_rfl, fun i => ?_, fun _ hx => nomatch hx⟩
    exact le_trans (show (0 : Int) ≤ 1 by decide) (le_max_right (rows i) 1)

/-- Two requests fill the instance, and one that comes by `pick_and_lease` finds no capacity. -/
theorem withinCaps_full : Always (step exactRouter) (WithinCaps (capOf fun _ => 2)) .fresh
    [.tryAcquire ⟨1, "r1"⟩ (smallInstance "a"), .tryAcquire ⟨2, "r2"⟩ (smallInstance "a"),
      .pick ⟨3, "r3"⟩ [smallInstance "a"], .next 0, .release ⟨1, "r1"⟩ "a",
      .release ⟨1, "r1"⟩ "a", .tryAcquire ⟨4, "r4"⟩ (smallInstance "a")] :=
  withinCaps_of_keepsCaps (by decide +kernel) (by decide +kernel)

/-- Request `r1` releases its lease on `a` twice, and holds one on `b` in between: the second
release frees a place on `a` that `r2` still has, and a third holder comes in. -/
theorem not_withinCaps_released_again :
    ¬ WithinCaps (capOf fun _ => 2) (run (step exactRouter) .fresh
    [.tryAcquire ⟨1, "r1"⟩ (smallInstance "a"), .tryAcquire ⟨2, "r2"⟩ (smallInstance "a"),
      .release ⟨1, "r1"⟩ "a", .tryAcquire ⟨1, "r1"⟩ (smallInstance "b"), .release ⟨1, "r1"⟩ "a",
      .tryAcquire ⟨3, "r3"⟩ (smallInstance "a"), .tryAcquire ⟨4, "r4"⟩ (smallInstance "a")]) := by
  intro h
  exact absurd (h "a").1 (by decide)

end LlmPort.Gateway
