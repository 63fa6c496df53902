import LlmPort.Backend.Docker.PullTracker

/-!
# What the subscribers of a pull are told

A pulling job is the one that the map has for its image, which is all that a start asks. A
subscriber that misses the event of its job finds its end when its wait has taken a second.
-/

namespace LlmPort.Backend.Docker

open Transition

variable {rounded : Int → Int → Rat} {job job' : PullJob} {msg : PullMessage} {sub sub' : Subscriber}
  {tracker : PullTracker} {e : PullEvent} {j k : Nat}

/-! ## Jobs -/

namespace PullJob

/-- What a job can become. -/
structure Later (job job' : PullJob) : Prop where
  pullId : job'.pullId = job.pullId
  image : job'.image = job.image
  tag : job'.tag = job.tag
  ended : job.state ≠ .pulling → job'.state = job.state ∧ job'.error = job.error

theorem Later.refl (job : PullJob) : Later job job := ⟨rfl, rfl, rfl, fun _ => ⟨rfl, rfl⟩⟩

theorem Later.imageRef (h : Later job job') : job'.imageRef = job.imageRef := by
  rw [PullJob.imageRef, h.image, h.tag]
  rfl

theorem Later.pulling (h : Later job job') (hstate : job'.state = .pulling) :
    job.state = .pulling := by
  by_contra hended
  exact hended ((h.ended hended).1.symm.trans hstate)

theorem terminal_eq_none_iff : job.terminal = none ↔ job.state = .pulling := by
  rw [terminal]
  split
  next h => exact iff_of_true rfl h
  next h => exact iff_of_false nofun (by rw [h]; nofun)
  next h => exact iff_of_false nofun (by rw [h]; nofun)

theorem exists_terminal_iff : (∃ msg, job.terminal = some msg) ↔ job.state ≠ .pulling := by
  rw [Ne, ← terminal_eq_none_iff, ← Option.ne_none_iff_exists']

theorem Later.terminal (h : Later job job') (hmsg : job.terminal = some msg) :
    job'.terminal = some msg := by
  obtain ⟨hstate, herror⟩ := h.ended (exists_terminal_iff.1 ⟨msg, hmsg⟩)
  rw [← hmsg, PullJob.terminal, PullJob.terminal, hstate, herror, h.imageRef, h.pullId]

theorem later_absorb (job : PullJob) (chunk : PullChunk) : Later job (job.absorb chunk) := by
  rw [absorb]
  split
  next => exact .refl job
  next => exact ⟨rfl, rfl, rfl, fun _ => ⟨rfl, rfl⟩⟩

theorem Later.of_pulling (h : Later job job') (hstate : job.state = .pulling) (event : Bool)
    (state : PullState) (error : Option String) :
    Later job { job' with event := event, state := state, error := error } :=
  ⟨h.pullId, h.image, h.tag, fun hended => (hended hstate).elim⟩

end PullJob

open PullJob

/-! ## Subscribers -/

namespace PullMessage

def IsProgress : PullMessage → Prop
  | progress .. => True
  | _ => False

end PullMessage

namespace Subscriber

/-- Zero or more progress snapshots were followed by the terminal message, and by no other. -/
def Finished (sub : Subscriber) (msg : PullMessage) : Prop :=
  ∃ snapshots, (∀ m ∈ snapshots, PullMessage.IsProgress m) ∧ sub.yielded = snapshots ++ [msg]

/-- The subscriber has told what there is to tell of its job, in the order in which it should. -/
def Follows (sub : Subscriber) (job : PullJob) : Prop :=
  match sub.phase with
  | .waiting _ | .yielding => ∀ msg ∈ sub.yielded, msg.IsProgress
  | .ending | .returned => ∃ msg, job.terminal = some msg ∧ sub.Finished msg

/-- What an event can do to a subscriber of the job. -/
inductive Moves (rounded : Int → Int → Rat) (job : PullJob) (sub : Subscriber) : Subscriber → Prop
  | stays : Moves rounded job sub sub
  | notified {b : Bool} (hphase : sub.phase = .waiting b) :
    Moves rounded job sub { sub with phase := .waiting true }
  | woken {b : Bool} (hphase : sub.phase = .waiting b) (now : Rat) :
    Moves rounded job sub (sub.wake rounded job now)
  | resumed : Moves rounded job sub (sub.resume job)

theorem moves_notify (rounded : Int → Int → Rat) (job : PullJob) (sub : Subscriber) (j : Nat) :
    sub.Moves rounded job (sub.notify j) := by
  rw [notify]
  split
  next hphase =>
    split
    next => exact .notified hphase
    next => exact .stays
  next => exact .stays

theorem wake_of_terminal (hmsg : job.terminal = some msg) (now : Rat) :
    sub.wake rounded job now =
      { sub with phase := .ending, yielded := sub.yielded ++ [msg] } := by
  rw [wake, hmsg]

theorem Moves.same_job (h : sub.Moves rounded job sub') : sub'.job = sub.job := by
  cases h with
  | stays => rfl
  | notified => rfl
  | woken =>
    rw [wake]
    split
    next => rfl
    next => dsimp only; split <;> rfl
  | resumed => rw [resume]; split <;> rfl

theorem Follows.wake (h : ∀ msg ∈ sub.yielded, msg.IsProgress) (now : Rat) :
    (sub.wake rounded job now).Follows job := by
  rw [Subscriber.wake]
  split
  next msg hmsg => exact ⟨msg, hmsg, sub.yielded, h, rfl⟩
  next =>
    dsimp only
    split
    next => exact List.forall_mem_append.2 ⟨h, List.forall_mem_singleton.2 trivial⟩
    next => exact h

theorem Follows.moves (h : sub.Follows job) (hmoves : sub.Moves rounded job sub') :
    sub'.Follows job := by
  cases hmoves with
  | stays => exact h
  | notified hphase =>
    rw [Follows, hphase] at h
    exact h
  | woken hphase now =>
    rw [Follows, hphase] at h
    exact Follows.wake h now
  | resumed =>
    rw [resume]
    split
    next hphase =>
      rw [Follows, hphase] at h
      exact h
    next hphase =>
      rw [Follows, hphase] at h
      exact h
    next => exact h

theorem Follows.later (h : sub.Follows job) (hlater : Later job job') : sub.Follows job' := by
  rw [Follows] at h ⊢
  split at h
  next => exact h
  next => exact h
  next =>
    obtain ⟨msg, hmsg, hfinished⟩ := h
    exact ⟨msg, hlater.terminal hmsg, hfinished⟩
  next =>
    obtain ⟨msg, hmsg, hfinished⟩ := h
    exact ⟨msg, hlater.terminal hmsg, hfinished⟩

end Subscriber

/-! ## What one event does -/

theorem PullJob.Later.event (h : Later job job') (event : Bool) :
    Later job { job' with event := event } :=
  ⟨h.pullId, h.image, h.tag, h.ended⟩

namespace PullTracker

theorem running_iff : tracker.Running j ↔
    ∃ job, tracker.made[j]? = some job ∧ job.state = .pulling := Option.map_eq_some_iff

/-- What an event can do. -/
inductive Effect (rounded : Int → Int → Rat) (tracker : PullTracker) (e : PullEvent) :
    PullTracker → Prop
  | idle : Effect rounded tracker e tracker
  | starts (image tag : String) (newId : PullId) (he : e = .startPull image tag newId)
    (hnone : tracker.getActiveFor (imageRef image tag) = none) :
    Effect rounded tracker e
      { tracker with
        made := tracker.made ++ [.new newId image tag]
        jobs := tracker.jobs.set newId tracker.made.length
        active := tracker.active.set (imageRef image tag) newId }
  | signals (j : Nat) (change : PullJob → PullJob) (hlater : ∀ job, Later job (change job)) :
    Effect rounded tracker e (tracker.signal j change)
  | ends (j : Nat) (change : PullJob → PullJob) (hrun : tracker.Running j)
    (hlater : ∀ job, job.state = .pulling → Later job (change job))
    (hended : ∀ job, (change job).state ≠ .pulling) :
    Effect rounded tracker e (tracker.endPull j change)
  | cleans (j : Nat) (hj : j ∈ tracker.cleanups) : Effect rounded tracker e (tracker.cleanup j)
  | subscribes (j : Nat) (job : PullJob) (hjob : tracker.made[j]? = some job) :
    Effect rounded tracker e
      { tracker with
        subscribers := tracker.subscribers ++ [⟨j, .waiting job.event, none, 0, []⟩] }
  | wakes (k : Nat) (now : Rat) (b : Bool) (hphase : tracker.phase k = some (.waiting b)) :
    Effect rounded tracker e (tracker.wake rounded k now)
  | resumes (k : Nat) : Effect rounded tracker e (tracker.resume k)

theorem effect_step (rounded : Int → Int → Rat) (tracker : PullTracker) (e : PullEvent) :
    Effect rounded tracker e (step rounded tracker e) := by
  have hfail (error : String) (job : PullJob) : (fail error job).state ≠ .pulling := nofun
  cases e with
  | startPull image tag newId =>
    rw [step, startPull]
    dsimp only
    split
    next => exact .idle
    next hnone => exact .starts image tag newId rfl hnone
  | chunk j chunk =>
    rw [step]
    split
    next hrun =>
      split
      next => exact .signals j _ fun job => later_absorb job chunk
      next error _ =>
        refine .ends j _ hrun (fun job hstate => ?_) fun job => hfail error _
        exact (later_absorb job chunk).of_pulling hstate _ _ _
    next => exact .idle
  | finish j =>
    rw [step]
    split
    next hrun =>
      exact .ends j _ hrun (fun job hstate => (Later.refl job).of_pulling hstate _ _ _)
        fun job => nofun
    next => exact .idle
  | raised j error =>
    rw [step]
    split
    next hrun =>
      exact .ends j _ hrun (fun job hstate => (Later.refl job).of_pulling hstate _ _ _)
        (hfail error)
    next => exact .idle
  | cleanup j =>
    rw [step]
    split
    next hj => exact .cleans j hj
    next => exact .idle
  | subscribe j =>
    rw [step]
    split
    next => exact .idle
    next job hjob => exact .subscribes j job hjob
  | notified k now =>
    rw [step]
    split
    next hphase => exact .wakes k now true hphase
    next => exact .idle
  | timeout k now =>
    rw [step]
    split
    next hphase =>
      obtain ⟨b, hphase⟩ := hphase
      exact .wakes k now b hphase
    next => exact .idle
  | resume k => exact .resumes k

theorem exists_modify {made : List PullJob} {f : PullJob → PullJob} (hjob : made[j]? = some job)
    (hf : ∀ job, made[k]? = some job → Later job (f job)) :
    ∃ job', (made.modify k f)[j]? = some job' ∧ Later job job' := by
  rw [List.getElem?_modify, hjob]
  split
  next heq => exact ⟨_, rfl, hf job (heq ▸ hjob)⟩
  next => exact ⟨_, rfl, .refl job⟩

/-- The jobs of a state become later ones. -/
theorem Effect.later {next : PullTracker} (h : Effect rounded tracker e next)
    (hjob : tracker.made[j]? = some job) : ∃ job', next.made[j]? = some job' ∧ Later job job' := by
  have hsame : ∃ job', tracker.made[j]? = some job' ∧ Later job job' := ⟨job, hjob, .refl job⟩
  cases h with
  | idle => exact hsame
  | starts =>
    have hlt := (List.getElem?_eq_some_iff.1 hjob).1
    exact ⟨job, (List.getElem?_append_left hlt).trans hjob, .refl job⟩
  | signals i change hlater =>
    exact exists_modify hjob fun job _ => (hlater job).event true
  | ends i change hrun hlater =>
    obtain ⟨old, hold, hstate⟩ := running_iff.1 hrun
    refine exists_modify hjob fun job hmade => ?_
    cases hold.symm.trans hmade
    exact (hlater old hstate).event true
  | cleans i =>
    rw [cleanup]
    split
    next => exact hsame
    next => exact hsame
  | subscribes => exact hsame
  | wakes i =>
    rw [wake]
    split
    next => exact hsame
    next =>
      split
      next => exact hsame
      next => exact exists_modify hjob fun job _ => (Later.refl job).event false
  | resumes i =>
    rw [resume]
    split
    next => exact hsame
    next =>
      split
      next => exact hsame
      next => exact hsame

/-- A subscriber of a state moves as one of its job. -/
theorem Effect.moves {next : PullTracker} (h : Effect rounded tracker e next)
    (hsub : tracker.subscribers[k]? = some sub) (hjob : tracker.made[sub.job]? = some job) :
    ∃ sub', next.subscribers[k]? = some sub' ∧ sub.Moves rounded job sub' := by
  have hsame : ∃ sub', tracker.subscribers[k]? = some sub' ∧ sub.Moves rounded job sub' :=
    ⟨sub, hsub, .stays⟩
  have hnotify (j : Nat) : ∃ sub', (tracker.subscribers.map (·.notify j))[k]? = some sub' ∧
      sub.Moves rounded job sub' :=
    ⟨_, by rw [List.getElem?_map, hsub]; rfl, Subscriber.moves_notify rounded job sub j⟩
  cases h with
  | idle => exact hsame
  | starts => exact hsame
  | signals i => exact hnotify i
  | ends i => exact hnotify i
  | cleans i =>
    rw [cleanup]
    split
    next => exact hsame
    next => exact hsame
  | subscribes =>
    have hlt := (List.getElem?_eq_some_iff.1 hsub).1
    exact ⟨sub, (List.getElem?_append_left hlt).trans hsub, .stays⟩
  | wakes i now b hphase =>
    rw [wake]
    split
    next => exact hsame
    next other hother =>
      split
      next => exact hsame
      next old hold =>
        rw [List.getElem?_modify, hsub]
        split
        next heq =>
          subst heq
          cases hsub.symm.trans hother
          cases hjob.symm.trans hold
          rw [phase, hsub] at hphase
          exact ⟨_, rfl, .woken (Option.some.inj hphase) now⟩
        next => exact ⟨sub, rfl, .stays⟩
  | resumes i =>
    rw [resume]
    split
    next => exact hsame
    next other hother =>
      split
      next => exact hsame
      next old hold =>
        rw [List.getElem?_modify, hsub]
        split
        next heq =>
          subst heq
          cases hsub.symm.trans hother
          cases hjob.symm.trans hold
          exact ⟨_, rfl, .resumed⟩
        next => exact ⟨sub, rfl, .stays⟩

/-- Who comes in starts to wait, and has been told nothing. -/
theorem Effect.subscribers {next : PullTracker} (h : Effect rounded tracker e next) :
    next.subscribers.length = tracker.subscribers.length ∨
      ∃ j job, tracker.made[j]? = some job ∧
        next.subscribers = tracker.subscribers ++ [⟨j, .waiting job.event, none, 0, []⟩] := by
  cases h with
  | idle => exact .inl rfl
  | starts => exact .inl rfl
  | signals => exact .inl (List.length_map ..)
  | ends => exact .inl (List.length_map ..)
  | cleans i =>
    rw [cleanup]
    split
    next => exact .inl rfl
    next => exact .inl rfl
  | subscribes i job hjob => exact .inr ⟨i, job, hjob, rfl⟩
  | wakes i =>
    rw [wake]
    split
    next => exact .inl rfl
    next =>
      split
      next => exact .inl rfl
      next => exact .inl (List.length_modify ..)
  | resumes i =>
    rw [resume]
    split
    next => exact .inl rfl
    next =>
      split
      next => exact .inl rfl
      next => exact .inl (List.length_modify ..)

/-! ## What holds in every state -/

/-- A pulling job is found by its image. -/
structure Tables (tracker : PullTracker) : Prop where
  ids : (tracker.made.map (·.pullId)).Nodup
  pulling : ∀ j job, tracker.made[j]? = some job → job.state = .pulling →
    tracker.active.get job.imageRef = some job.pullId ∧ tracker.jobs.get job.pullId = some j

structure WF (tracker : PullTracker) : Prop extends Tables tracker where
  cleanups : ∀ j ∈ tracker.cleanups, ∃ job, tracker.made[j]? = some job ∧ job.state ≠ .pulling
  streams : ∀ (k : Nat) (sub : Subscriber), tracker.subscribers[k]? = some sub →
    ∃ job, tracker.made[sub.job]? = some job ∧ sub.Follows job

/-- The id that is drawn is that of no job. -/
def Fresh (tracker : PullTracker) : PullEvent → Prop
  | .startPull _ _ newId => ∀ job ∈ tracker.made, job.pullId ≠ newId
  | _ => True

theorem Tables.of_later {next : PullTracker} (h : tracker.Tables)
    (hlen : next.made.length = tracker.made.length)
    (hlater : ∀ (j : Nat) (job : PullJob), tracker.made[j]? = some job →
      ∃ job', next.made[j]? = some job' ∧ Later job job')
    (hactive : next.active = tracker.active) (hjobs : next.jobs = tracker.jobs) : next.Tables := by
  have hback (j : Nat) (job' : PullJob) (hjob' : next.made[j]? = some job') :
      ∃ job, tracker.made[j]? = some job ∧ Later job job' := by
    have hlt := (List.getElem?_eq_some_iff.1 hjob').1
    have hjob := List.getElem?_eq_getElem (hlen ▸ hlt)
    obtain ⟨later, hlater, hle⟩ := hlater j _ hjob
    cases hlater.symm.trans hjob'
    exact ⟨_, hjob, hle⟩
  refine ⟨?_, fun j job' hjob' hstate => ?_⟩
  · have hids : next.made.map (·.pullId) = tracker.made.map (·.pullId) := by
      refine List.ext_getElem? fun j => ?_
      rw [List.getElem?_map, List.getElem?_map]
      cases hjob' : next.made[j]? with
      | none =>
        rw [List.getElem?_eq_none_iff, hlen] at hjob'
        rw [List.getElem?_eq_none hjob']
      | some job' =>
        obtain ⟨job, hjob, hle⟩ := hback j job' hjob'
        rw [hjob, Option.map_some, Option.map_some, hle.pullId]
    rw [hids]
    exact h.ids
  · obtain ⟨job, hjob, hle⟩ := hback j job' hjob'
    rw [hle.imageRef, hle.pullId, hactive, hjobs]
    exact h.pulling j job hjob (hle.pulling hstate)

theorem Tables.getActiveFor (h : tracker.Tables) (hjob : tracker.made[j]? = some job)
    (hstate : job.state = .pulling) : tracker.getActiveFor job.imageRef = some j := by
  obtain ⟨hactive, hjobs⟩ := h.pulling j job hjob hstate
  rw [PullTracker.getActiveFor, hactive]
  dsimp only
  rw [hjobs]
  dsimp only
  rw [hjob]
  exact if_pos hstate

theorem Tables.index_inj {i : Nat} (h : tracker.Tables) (hjob : tracker.made[i]? = some job)
    (hjob' : tracker.made[j]? = some job') (hid : job.pullId = job'.pullId) : i = j := by
  have hlt := (List.getElem?_eq_some_iff.1 hjob).1
  have heq : (tracker.made.map (·.pullId))[i]? = (tracker.made.map (·.pullId))[j]? := by
    rw [List.getElem?_map, List.getElem?_map, hjob, hjob', Option.map_some, Option.map_some, hid]
  exact (List.getElem?_inj (by rwa [List.length_map]) h.ids).1 heq

theorem Tables.starts {image tag : String} {newId : PullId} (h : tracker.Tables)
    (hfresh : ∀ job ∈ tracker.made, job.pullId ≠ newId)
    (hnone : tracker.getActiveFor (imageRef image tag) = none) :
    Tables
      { tracker with
        made := tracker.made ++ [.new newId image tag]
        jobs := tracker.jobs.set newId tracker.made.length
        active := tracker.active.set (imageRef image tag) newId } := by
  refine ⟨?_, fun j job hjob hstate => ?_⟩
  · rw [List.map_append, List.map_singleton, ← List.concat_eq_append]
    refine h.ids.concat fun hmem => ?_
    obtain ⟨job, hjob, hid⟩ := List.mem_map.1 hmem
    exact hfresh job hjob hid
  · dsimp only at hjob ⊢
    rw [Dict.get_set, Dict.get_set]
    rcases Nat.lt_or_ge j tracker.made.length with hlt | hge
    · rw [List.getElem?_append_left hlt] at hjob
      have href : job.imageRef ≠ imageRef image tag := by
        intro href
        rw [← href, h.getActiveFor hjob hstate] at hnone
        cases hnone
      rw [if_neg href, if_neg (hfresh job (List.mem_of_getElem? hjob))]
      exact h.pulling j job hjob hstate
    · rw [List.getElem?_append_right hge, List.getElem?_singleton] at hjob
      split at hjob
      next hzero =>
        cases hjob
        rw [Nat.le_antisymm (Nat.le_of_sub_eq_zero hzero) hge]
        exact ⟨if_pos rfl, if_pos rfl⟩
      next => cases hjob

theorem Tables.cleanup (h : tracker.Tables) (hjob : tracker.made[j]? = some job)
    (hended : job.state ≠ .pulling) : (tracker.cleanup j).Tables := by
  rw [PullTracker.cleanup, hjob]
  refine ⟨h.ids, fun i other hother hstate => ?_⟩
  obtain ⟨hactive, hjobs⟩ := h.pulling i other hother hstate
  have hid : other.pullId ≠ job.pullId := by
    intro hid
    cases h.index_inj hother hjob hid
    cases hother.symm.trans hjob
    exact hended hstate
  refine ⟨?_, ?_⟩
  · dsimp only
    split
    next hown =>
      have href : other.imageRef ≠ job.imageRef := by
        intro href
        rw [← href, hactive] at hown
        exact hid (Option.some.inj hown)
      rw [Dict.get_pop, if_neg href, hactive]
    next => exact hactive
  · rw [Dict.get_pop, if_neg hid, hjobs]

theorem Effect.tables {next : PullTracker} (heffect : Effect rounded tracker e next)
    (h : tracker.WF) (hfresh : tracker.Fresh e) : next.Tables := by
  have hlater (j : Nat) (job : PullJob) (hjob : tracker.made[j]? = some job) :=
    heffect.later hjob
  cases heffect with
  | idle => exact h.toTables
  | starts image tag newId he hnone =>
    subst he
    exact h.toTables.starts hfresh hnone
  | signals => exact h.toTables.of_later (List.length_modify ..) hlater rfl rfl
  | ends => exact h.toTables.of_later (List.length_modify ..) hlater rfl rfl
  | cleans j hj =>
    obtain ⟨job, hjob, hended⟩ := h.cleanups j hj
    exact h.toTables.cleanup hjob hended
  | subscribes => exact h.toTables.of_later rfl hlater rfl rfl
  | wakes =>
    revert hlater
    rw [wake]
    split
    next => exact fun _ => h.toTables
    next =>
      split
      next => exact fun _ => h.toTables
      next => exact fun hlater => h.toTables.of_later (List.length_modify ..) hlater rfl rfl
  | resumes =>
    rw [resume]
    split
    next => exact h.toTables
    next =>
      split
      next => exact h.toTables
      next => exact h.toTables.of_later rfl (fun j job hjob => ⟨job, hjob, .refl job⟩) rfl rfl

theorem Effect.cleanups {next : PullTracker} (heffect : Effect rounded tracker e next)
    (h : tracker.WF) : ∀ j ∈ next.cleanups, ∃ job, next.made[j]? = some job ∧
      job.state ≠ .pulling := by
  have hkept (j : Nat) (hj : j ∈ tracker.cleanups) :
      ∃ job, next.made[j]? = some job ∧ job.state ≠ .pulling := by
    obtain ⟨job, hjob, hended⟩ := h.cleanups j hj
    obtain ⟨job', hjob', hlater⟩ := heffect.later hjob
    exact ⟨job', hjob', fun hstate => hended (hlater.pulling hstate)⟩
  cases heffect with
  | idle => exact hkept
  | starts => exact hkept
  | signals => exact hkept
  | ends i change hrun hlater hended =>
    intro j hj
    rcases List.mem_append.1 hj with hj | hj
    · exact hkept j hj
    · rw [List.mem_singleton.1 hj]
      obtain ⟨job, hjob, -⟩ := running_iff.1 hrun
      refine ⟨{ change job with event := true }, ?_, hended job⟩
      rw [endPull, signal, List.getElem?_modify, hjob]
      simp
  | cleans i =>
    revert hkept
    rw [cleanup]
    split
    next => exact fun hkept => hkept
    next => exact fun hkept j hj => hkept j (List.mem_of_mem_erase hj)
  | subscribes => exact hkept
  | wakes =>
    revert hkept
    rw [wake]
    split
    next => exact fun hkept => hkept
    next => split <;> exact fun hkept => hkept
  | resumes =>
    revert hkept
    rw [resume]
    split
    next => exact fun hkept => hkept
    next => split <;> exact fun hkept => hkept

theorem Effect.streams {next : PullTracker} (heffect : Effect rounded tracker e next)
    (h : tracker.WF) (k : Nat) (sub' : Subscriber) (hsub' : next.subscribers[k]? = some sub') :
    ∃ job, next.made[sub'.job]? = some job ∧ sub'.Follows job := by
  rcases Nat.lt_or_ge k tracker.subscribers.length with hlt | hge
  · have hsub := List.getElem?_eq_getElem hlt
    obtain ⟨job, hjob, hfollows⟩ := h.streams k _ hsub
    obtain ⟨moved, hmoved, hmoves⟩ := heffect.moves hsub hjob
    cases hmoved.symm.trans hsub'
    obtain ⟨job', hjob', hlater⟩ := heffect.later hjob
    exact ⟨job', hmoves.same_job ▸ hjob', (hfollows.moves hmoves).later hlater⟩
  · have hlt' := (List.getElem?_eq_some_iff.1 hsub').1
    rcases heffect.subscribers with hlen | ⟨j, job, hjob, hsubs⟩
    · exact (Nat.not_lt.2 hge (hlen ▸ hlt')).elim
    · rw [hsubs, List.getElem?_append_right hge, List.getElem?_singleton] at hsub'
      split at hsub'
      next =>
        cases hsub'
        obtain ⟨job', hjob', -⟩ := heffect.later hjob
        exact ⟨job', hjob', nofun⟩
      next => cases hsub'

theorem wf_empty : empty.WF :=
  ⟨⟨List.nodup_nil, nofun⟩, nofun, nofun⟩

theorem wf_step (rounded : Int → Int → Rat) (tracker : PullTracker) (e : PullEvent)
    (h : tracker.WF) (hfresh : tracker.Fresh e) : (step rounded tracker e).WF where
  toTables := (effect_step rounded tracker e).tables h hfresh
  cleanups := (effect_step rounded tracker e).cleanups h
  streams := (effect_step rounded tracker e).streams h

/-! ## The claims on one state -/

/-- The tracking of pulls is in order. -/
structure Tracks (rounded : Int → Int → Rat) (tracker : PullTracker) : Prop where
  /-- At most one job for an image is pulling. -/
  onePulling : ∀ (i j : Nat) (a b : PullJob), tracker.made[i]? = some a → tracker.made[j]? = some b →
    a.state = .pulling → b.state = .pulling → a.imageRef = b.imageRef → i = j
  /-- A start joins the pulling job of the image. -/
  joins : ∀ (j : Nat) (job : PullJob) (image tag : String) (newId : PullId),
    tracker.made[j]? = some job → job.state = .pulling → job.imageRef = imageRef image tag →
    tracker.startPull image tag newId = (tracker, j, false)
  /-- The cleanup of a job leaves the mapping of another one. -/
  keepsOthers : ∀ (i j : Nat) (a : PullJob), i ≠ j → tracker.made[i]? = some a →
    tracker.active.get a.imageRef = some a.pullId →
    (step rounded tracker (.cleanup j)).active.get a.imageRef = some a.pullId
  /-- Subscribers yield progress, and then one terminal message. -/
  streams : ∀ (k : Nat) (sub : Subscriber), tracker.subscribers[k]? = some sub →
    ∃ job, tracker.made[sub.job]? = some job ∧ sub.Follows job

theorem WF.tracks (h : tracker.WF) (rounded : Int → Int → Rat) : tracker.Tracks rounded where
  onePulling i j a b ha hb hapulling hbpulling href := by
    have hi := h.getActiveFor ha hapulling
    rw [href, h.getActiveFor hb hbpulling] at hi
    exact (Option.some.inj hi).symm
  joins j job image tag newId hjob hstate href := by
    rw [startPull, ← href]
    dsimp only
    rw [h.getActiveFor hjob hstate]
  keepsOthers i j a hne ha hactive := by
    rw [step]
    split
    next =>
      rw [cleanup]
      split
      next => exact hactive
      next job hjob =>
        dsimp only
        split
        next hown =>
          have href : a.imageRef ≠ job.imageRef := by
            intro href
            rw [← href, hactive] at hown
            exact hne (h.index_inj ha hjob (Option.some.inj hown))
          rw [Dict.get_pop, if_neg href, hactive]
        next => exact hactive
    next => exact hactive
  streams := h.streams

/-! ## Subscribers of a job that has ended -/

/-- The subscriber is at `phase`, its job has ended, and it has not been told. -/
def Untold (k : Nat) (msg : PullMessage) (phase : Phase → Prop) (tracker : PullTracker) : Prop :=
  ∃ sub, tracker.subscribers[k]? = some sub ∧ phase sub.phase ∧
    (∀ m ∈ sub.yielded, PullMessage.IsProgress m) ∧
    ∃ job, tracker.made[sub.job]? = some job ∧ job.terminal = some msg

def Told (k : Nat) (msg : PullMessage) (tracker : PullTracker) : Prop :=
  ∃ sub, tracker.subscribers[k]? = some sub ∧ (sub.phase = .ending ∨ sub.phase = .returned) ∧
    sub.Finished msg

def IsWaiting (phase : Phase) : Prop := ∃ b, phase = .waiting b

def IsYielding (phase : Phase) : Prop := phase = .yielding

/-- The event ends the wait of the subscriber. -/
def Wakes (tracker : PullTracker) (k : Nat) (e : PullEvent) : Prop :=
  (∃ now, e = .timeout k now) ∨
    ∃ now, e = .notified k now ∧ tracker.phase k = some (.waiting true)

theorem Told.step (h : tracker.Told k msg) (hwf : tracker.WF) (e : PullEvent) :
    (step rounded tracker e).Told k msg := by
  obtain ⟨sub, hsub, hphase, hfinished⟩ := h
  obtain ⟨job, hjob, -⟩ := hwf.streams k sub hsub
  obtain ⟨sub', hsub', hmoves⟩ := (effect_step rounded tracker e).moves hsub hjob
  refine ⟨sub', hsub', ?_⟩
  cases hmoves with
  | stays => exact ⟨hphase, hfinished⟩
  | notified hwaiting => rw [hwaiting] at hphase; simp at hphase
  | woken hwaiting => rw [hwaiting] at hphase; simp at hphase
  | resumed =>
    rw [Subscriber.resume]
    rcases hphase with hphase | hphase
    · rw [hphase]
      exact ⟨.inr rfl, hfinished⟩
    · rw [hphase]
      exact ⟨.inr hphase, hfinished⟩

theorem Untold.step_waiting (h : tracker.Untold k msg IsWaiting) (e : PullEvent) :
    (step rounded tracker e).Untold k msg IsWaiting ∨ (step rounded tracker e).Told k msg := by
  obtain ⟨sub, hsub, ⟨b, hphase⟩, hprogress, job, hjob, hmsg⟩ := h
  obtain ⟨sub', hsub', hmoves⟩ := (effect_step rounded tracker e).moves hsub hjob
  obtain ⟨job', hjob', hlater⟩ := (effect_step rounded tracker e).later hjob
  have hterminal := hlater.terminal hmsg
  cases hmoves with
  | stays => exact .inl ⟨sub, hsub', ⟨b, hphase⟩, hprogress, job', hjob', hterminal⟩
  | notified => exact .inl ⟨_, hsub', ⟨true, rfl⟩, hprogress, job', hjob', hterminal⟩
  | woken _ now =>
    rw [Subscriber.wake_of_terminal hmsg] at hsub'
    exact .inr ⟨_, hsub', .inl rfl, sub.yielded, hprogress, rfl⟩
  | resumed =>
    rw [Subscriber.resume, hphase] at hsub'
    exact .inl ⟨sub, hsub', ⟨b, hphase⟩, hprogress, job', hjob', hterminal⟩

theorem Untold.step_yielding (h : tracker.Untold k msg IsYielding) (e : PullEvent) :
    (step rounded tracker e).Untold k msg IsYielding ∨
      (step rounded tracker e).Untold k msg IsWaiting := by
  obtain ⟨sub, hsub, hphase, hprogress, job, hjob, hmsg⟩ := h
  obtain ⟨sub', hsub', hmoves⟩ := (effect_step rounded tracker e).moves hsub hjob
  obtain ⟨job', hjob', hlater⟩ := (effect_step rounded tracker e).later hjob
  have hterminal := hlater.terminal hmsg
  rw [IsYielding] at hphase
  cases hmoves with
  | stays => exact .inl ⟨sub, hsub', hphase, hprogress, job', hjob', hterminal⟩
  | notified hwaiting => rw [hwaiting] at hphase; cases hphase
  | woken hwaiting => rw [hwaiting] at hphase; cases hphase
  | resumed =>
    rw [Subscriber.resume, hphase] at hsub'
    exact .inr ⟨_, hsub', ⟨job.event, rfl⟩, hprogress, job', hjob', hterminal⟩

theorem Untold.wakes (h : tracker.Untold k msg IsWaiting) (hwakes : tracker.Wakes k e) :
    (step rounded tracker e).Told k msg := by
  obtain ⟨sub, hsub, ⟨b, hphase⟩, hprogress, job, hjob, hmsg⟩ := h
  have hwoken (now : Rat) : (tracker.wake rounded k now).Told k msg := by
    rw [wake, hsub]
    dsimp only
    rw [hjob]
    refine ⟨sub.wake rounded job now, ?_, ?_⟩
    · dsimp only
      rw [List.getElem?_modify, hsub]
      simp
    · rw [Subscriber.wake_of_terminal hmsg]
      exact ⟨.inl rfl, sub.yielded, hprogress, rfl⟩
  rcases hwakes with ⟨now, rfl⟩ | ⟨now, rfl, hnotified⟩
  · rw [step, if_pos ⟨b, by rw [phase, hsub, Option.map_some, hphase]⟩]
    exact hwoken now
  · rw [step, if_pos hnotified]
    exact hwoken now

theorem Untold.resumes (h : tracker.Untold k msg IsYielding) :
    (step rounded tracker (.resume k)).Untold k msg IsWaiting := by
  obtain ⟨sub, hsub, hphase, hprogress, job, hjob, hmsg⟩ := h
  rw [IsYielding] at hphase
  rw [step, resume, hsub]
  dsimp only
  rw [hjob]
  refine ⟨{ sub with phase := .waiting job.event }, ?_, ⟨job.event, rfl⟩, hprogress, job, hjob,
    hmsg⟩
  dsimp only
  rw [List.getElem?_modify, hsub]
  simp [Subscriber.resume, hphase]

/-! ## Schedules -/

variable {events : ℕ → PullEvent}

/-- No wait takes for ever, and whoever was told something asks for the next. -/
structure Fair (rounded : Int → Int → Rat) (events : ℕ → PullEvent) : Prop where
  wakes : ∀ n k b, (stateAt (step rounded) empty events n).phase k = some (.waiting b) →
    ∃ m, n ≤ m ∧ (stateAt (step rounded) empty events m).Wakes k (events m)
  resumes : ∀ n k, (stateAt (step rounded) empty events n).phase k = some .yielding →
    ∃ m, n ≤ m ∧ events m = .resume k

theorem wf_stateAt
    (hfresh : ∀ n, (stateAt (step rounded) empty events n).Fresh (events n)) (n : ℕ) :
    (stateAt (step rounded) empty events n).WF :=
  stateAt_invariant (wf_step rounded) wf_empty hfresh n

theorem exists_told (hfair : Fair rounded events)
    (hfresh : ∀ n, (stateAt (step rounded) empty events n).Fresh (events n)) {n : ℕ}
    (hsub : (stateAt (step rounded) empty events n).subscribers[k]? = some sub)
    (hjob : (stateAt (step rounded) empty events n).made[sub.job]? = some job)
    (hmsg : job.terminal = some msg) :
    ∃ m, n ≤ m ∧ (stateAt (step rounded) empty events m).Told k msg := by
  have hwaiting {n : ℕ} (h : (stateAt (step rounded) empty events n).Untold k msg IsWaiting) :
      ∃ m, n ≤ m ∧ (stateAt (step rounded) empty events m).Told k msg := by
    have hhelpful (s : PullTracker) (e : PullEvent) (hs : s.Untold k msg IsWaiting)
        (he : s.Wakes k e) : (step rounded s e).Told k msg := hs.wakes he
    refine leadsTo (fun s e hs => hs.step_waiting e) hhelpful (fun n hn => ?_) h
    obtain ⟨sub, hsub, ⟨b, hphase⟩, -⟩ := hn
    exact hfair.wakes n k b (by rw [phase, hsub, Option.map_some, hphase])
  have hyielding {n : ℕ} (h : (stateAt (step rounded) empty events n).Untold k msg IsYielding) :
      ∃ m, n ≤ m ∧ (stateAt (step rounded) empty events m).Untold k msg IsWaiting := by
    have hhelpful (s : PullTracker) (e : PullEvent) (hs : s.Untold k msg IsYielding)
        (he : e = .resume k) : (step rounded s e).Untold k msg IsWaiting := he ▸ hs.resumes
    refine leadsTo (fun s e hs => hs.step_yielding e) hhelpful (fun n hn => ?_) h
    obtain ⟨sub, hsub, hphase, -⟩ := hn
    exact hfair.resumes n k (by rw [phase, hsub, Option.map_some, hphase])
  obtain ⟨job', hjob', hfollows⟩ := (wf_stateAt hfresh n).streams k sub hsub
  cases hjob.symm.trans hjob'
  rw [Subscriber.Follows] at hfollows
  split at hfollows
  next b hphase => exact hwaiting ⟨sub, hsub, ⟨b, hphase⟩, hfollows, job, hjob, hmsg⟩
  next hphase =>
    obtain ⟨m, hle, hm⟩ := hyielding ⟨sub, hsub, hphase, hfollows, job, hjob, hmsg⟩
    obtain ⟨l, hle', hl⟩ := hwaiting hm
    exact ⟨l, hle.trans hle', hl⟩
  next hphase =>
    obtain ⟨msg', hmsg', hfinished⟩ := hfollows
    cases hmsg.symm.trans hmsg'
    exact ⟨n, le_rfl, sub, hsub, .inl hphase, hfinished⟩
  next hphase =>
    obtain ⟨msg', hmsg', hfinished⟩ := hfollows
    cases hmsg.symm.trans hmsg'
    exact ⟨n, le_rfl, sub, hsub, .inr hphase, hfinished⟩

/-- Whatever the order of the events, the tracking is in order at every time; and each subscriber
of a job that has ended has, from some time on, yielded progress and the one terminal message. -/
theorem tracks_of_fresh
    (hfresh : ∀ n, (stateAt (step rounded) empty events n).Fresh (events n)) :
    (∀ n, (stateAt (step rounded) empty events n).Tracks rounded) ∧
      (Fair rounded events → ∀ (n k : ℕ) (sub : Subscriber) (job : PullJob),
        (stateAt (step rounded) empty events n).subscribers[k]? = some sub →
        (stateAt (step rounded) empty events n).made[sub.job]? = some job →
        job.state ≠ .pulling →
        ∃ msg, job.terminal = some msg ∧ ∃ m, ∀ l, m ≤ l →
          ∃ sub', (stateAt (step rounded) empty events l).subscribers[k]? = some sub' ∧
            sub'.Finished msg) := by
  refine ⟨fun n => (wf_stateAt hfresh n).tracks rounded, ?_⟩
  intro hfair n k sub job hsub hjob hended
  obtain ⟨msg, hmsg⟩ := exists_terminal_iff.2 hended
  obtain ⟨m, -, hm⟩ := exists_told hfair hfresh hsub hjob hmsg
  refine ⟨msg, hmsg, m, fun l hle => ?_⟩
  have htold : (stateAt (step rounded) empty events l).Told k msg := by
    induction hle with
    | refl => exact hm
    | step hle ih => exact ih.step (wf_stateAt hfresh _) _
  obtain ⟨sub', hsub', -, hfinished⟩ := htold
  exact ⟨sub', hsub', hfinished⟩

/-- A pull that is followed to its end. -/
def pullSchedule : ℕ → PullEvent
  | 0 => .startPull "img" "latest" 0
  | 1 => .subscribe 0
  | 2 => .finish 0
  | 3 => .timeout 0 0
  | _ => .resume 0

theorem fresh_pullSchedule (n : ℕ) :
    (stateAt (step fun _ _ => 0) empty pullSchedule n).Fresh (pullSchedule n) := by
  rcases n with _ | _ | _ | _ | n
  · exact nofun
  all_goals trivial

theorem stateAt_pullSchedule (n : ℕ) : stateAt (step fun _ _ => 0) empty pullSchedule (n + 5) =
    stateAt (step fun _ _ => 0) empty pullSchedule 5 := by
  induction n with
  | zero => rfl
  | succ n ih =>
    rw [Nat.add_right_comm, stateAt_succ, ih]
    rfl

theorem fair_pullSchedule : Fair (fun _ _ => 0) pullSchedule where
  wakes n k b hphase := by
    rcases Nat.lt_or_ge 3 n with hlt | hle
    · obtain ⟨n, rfl⟩ := Nat.exists_eq_add_of_le' hlt
      rcases n with _ | n
      · rcases k with _ | k <;> cases hphase
      · rw [Nat.add_assoc, stateAt_pullSchedule] at hphase
        rcases k with _ | k <;> cases hphase
    · rcases k with _ | k
      · exact ⟨3, hle, .inl ⟨0, rfl⟩⟩
      · rcases n with _ | _ | _ | _ | n
        · cases hphase
        · cases hphase
        · cases hphase
        · cases hphase
        · omega
  resumes n k hphase := by
    rcases k with _ | k
    · exact ⟨max n 4, le_max_left n 4, by
        obtain ⟨m, hm⟩ := Nat.exists_eq_add_of_le' (le_max_right n 4)
        rw [hm]
        rfl⟩
    · rcases n with _ | _ | _ | _ | _ | n
      · cases hphase
      · cases hphase
      · cases hphase
      · cases hphase
      · cases hphase
      · rw [Nat.add_assoc, stateAt_pullSchedule] at hphase
        cases hphase

theorem tracks_pullSchedule :
    (∀ n, (stateAt (step fun _ _ => 0) empty pullSchedule n).Tracks fun _ _ => 0) ∧
      ∃ msg, PullMessage.complete 0 "img:latest" = msg ∧ ∃ m, ∀ l, m ≤ l →
        ∃ sub, (stateAt (step fun _ _ => 0) empty pullSchedule l).subscribers[0]? = some sub ∧
          sub.Finished msg := by
  obtain ⟨htracks, htold⟩ := @tracks_of_fresh (fun _ _ => 0) pullSchedule fresh_pullSchedule
  obtain ⟨msg, hmsg, hfinished⟩ := htold fair_pullSchedule 3 0 _ _ rfl rfl nofun
  refine ⟨htracks, msg, ?_, hfinished⟩
  exact Option.some.inj hmsg

end PullTracker

end LlmPort.Backend.Docker
