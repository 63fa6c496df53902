import LlmPort.ModelSync.Integrity
import LlmPort.ModelSync.StorePull

/-!
# Containment

A pull stays in the model's own directory, as long as neither that directory nor its `blobs`, `refs`
and `snapshots` are links. Links anywhere else in the store, and those a snapshot has laid out, are
met by the check of the path that they are on, or lead nowhere.
-/

namespace LlmPort.ModelSync

open Files Transition

namespace Store

/-- What an operation may have done: touches that are allowed and new links at places that are
allowed, while some entries stay. -/
structure Changes (T : Touch → Prop) (L : Path → LinkTarget → Prop) (K : Path → Entry Bytes → Prop)
    (s s' : StoreState) : Prop where
  touched : ∃ more, s'.touched = s.touched ++ more ∧ ∀ t ∈ more, T t
  links : ∀ q target, s'.disk.get q = some (.link target) →
    s.disk.get q = some (.link target) ∨ L q target
  kept : ∀ q entry, K q entry → s.disk.get q = some entry → s'.disk.get q = some entry

/-- No link is new. -/
abbrev NoLinks (_ : Path) (_ : LinkTarget) : Prop := False

namespace Changes

variable {T : Touch → Prop} {L L' : Path → LinkTarget → Prop} {K K' : Path → Entry Bytes → Prop}
  {s s' s'' : StoreState} {p : Path}

theorem refl : Changes T L K s s :=
  ⟨⟨[], (List.append_nil _).symm, by simp⟩, fun _ _ h => .inl h, fun _ _ _ h => h⟩

theorem trans (h : Changes T L K s s') (h' : Changes T L K s' s'') : Changes T L K s s'' := by
  obtain ⟨more, hmore, hT⟩ := h.touched
  obtain ⟨more', hmore', hT'⟩ := h'.touched
  refine ⟨⟨more ++ more', ?_, ?_⟩, fun q target hq => ?_, fun q entry hK hq => ?_⟩
  · rw [hmore', hmore, List.append_assoc]
  · exact List.forall_mem_append.2 ⟨hT, hT'⟩
  · exact (h'.links q target hq).elim (h.links q target) .inr
  · exact h'.kept q entry hK (h.kept q entry hK hq)

theorem mono (h : Changes T L K s s') (hL : ∀ q target, L q target → L' q target)
    (hK : ∀ q entry, K' q entry → K q entry) : Changes T L' K' s s' :=
  ⟨h.touched, fun q target hq => (h.links q target hq).imp_right (hL q target),
    fun q entry hq => h.kept q entry (hK q entry hq)⟩

theorem widen {T' : Touch → Prop} (h : Changes T L K s s') (hT : ∀ t, T t → T' t) :
    Changes T' L K s s' := by
  obtain ⟨more, hmore, hall⟩ := h.touched
  exact ⟨⟨more, hmore, fun t ht => hT t (hall t ht)⟩, h.links, h.kept⟩

/-- A path stays resolved where new links do not lie on it. -/
theorem resolved (h : Changes T L K s s') (hL : ∀ q target, L q target → ¬ q <+: p)
    (hp : s.disk.Resolved p) : s'.disk.Resolved p := by
  refine ⟨fun q hq => ?_, hp.noDots⟩
  rintro ⟨target, htarget⟩
  rcases h.links q target htarget with hold | hnew
  · exact hp.plain q hq ⟨target, hold⟩
  · exact hL q target hnew hq

theorem resolved_of_noLinks (h : Changes T NoLinks K s s') (hp : s.disk.Resolved p) :
    s'.disk.Resolved p :=
  h.resolved (fun _ _ h => h.elim) hp

end Changes

/-- From `s` on, the computation changes what it may, and returns as `Q` says. -/
def Does {α : Type} (T : Touch → Prop) (L : Path → LinkTarget → Prop) (K : Path → Entry Bytes → Prop)
    (x : PullM α) (s : StoreState) (Q : α → StoreState → Prop) : Prop :=
  Ends x s (fun a s' => Changes T L K s s' ∧ Q a s') fun _ s' => Changes T L K s s'

/-- The computation only looks. -/
def Looks {α : Type} (x : PullM α) (s : StoreState) (Q : α → Prop) : Prop :=
  Ends x s (fun a s' => s' = s ∧ Q a) fun _ s' => s' = s

section
variable {T : Touch → Prop} {L : Path → LinkTarget → Prop} {K : Path → Entry Bytes → Prop} {α β : Type}
  {s s' : StoreState} {x : PullM α} {f : α → PullM β} {Q Q' : α → StoreState → Prop}
  {R : β → StoreState → Prop} {P : α → Prop} {I : StoreState → Prop} {l : List α}

theorem Does.pure {a : α} (h : Q a s) : Does T L K (pure a) s Q := ends_pure.2 ⟨.refl, h⟩

theorem Does.throw {e : StoreError} : Does T L K (throw e : PullM α) s Q := ends_throw.2 .refl

theorem Does.raise {e : PullerError} : Does T L K (Store.raise e : PullM α) s Q := Does.throw

theorem Does.bind (hx : Does T L K x s Q)
    (hf : ∀ a s', Changes T L K s s' → Q a s' → Does T L K (f a) s' R) :
    Does T L K (x >>= f) s R :=
  ends_bind.2 <| Ends.imp hx
    (fun a s' ⟨hc, hQ⟩ => Ends.imp (hf a s' hc hQ) (fun _ _ h => ⟨hc.trans h.1, h.2⟩)
      fun _ _ h => hc.trans h)
    fun _ _ h => h

theorem Does.changes (hx : Does T L K x s Q) :
    Does T L K x s fun a s' => Q a s' ∧ Changes T L K s s' :=
  Ends.imp hx (fun _ _ h => ⟨h.1, h.2, h.1⟩) fun _ _ h => h

/-- A step that makes no link, among others that may. -/
theorem Does.quiet (hx : Does T NoLinks K x s Q) :
    Does T L K x s fun a s' => Q a s' ∧ Changes T NoLinks K s s' :=
  Ends.imp hx (fun _ _ h => ⟨h.1.mono (fun _ _ h => h.elim) fun _ _ h => h, h.2, h.1⟩)
    fun _ _ h => h.mono (fun _ _ h => h.elim) fun _ _ h => h

theorem Does.imp (hx : Does T L K x s Q) (hQ : ∀ a s', Q a s' → Q' a s') : Does T L K x s Q' :=
  Ends.imp hx (fun a s' h => ⟨h.1, hQ a s' h.2⟩) fun _ _ h => h

theorem Does.mono {L' : Path → LinkTarget → Prop} {K' : Path → Entry Bytes → Prop}
    (hx : Does T L K x s Q) (hL : ∀ q target, L q target → L' q target)
    (hK : ∀ q entry, K' q entry → K q entry) : Does T L' K' x s Q :=
  Ends.imp hx (fun _ _ h => ⟨h.1.mono hL hK, h.2⟩) fun _ _ h => h.mono hL hK

theorem Does.widen {T' : Touch → Prop} (hx : Does T L K x s Q) (hT : ∀ t, T t → T' t) :
    Does T' L K x s Q :=
  Ends.imp hx (fun _ _ h => ⟨h.1.widen hT, h.2⟩) fun _ _ h => h.widen hT

theorem Does.ite {c : Prop} [Decidable c] {y : PullM α} (hx : c → Does T L K x s Q)
    (hy : ¬ c → Does T L K y s Q) : Does T L K (if c then x else y) s Q := by
  split
  next hc => exact hx hc
  next hc => exact hy hc

/-- A loop keeps what each round keeps. -/
theorem Does.forM {f : α → PullM PUnit} (hI : I s)
    (hf : ∀ a ∈ l, ∀ s, I s → Does T L K (f a) s fun _ => I) :
    Does T L K (l.forM f) s fun _ => I := by
  induction l generalizing s with
  | nil => exact .pure hI
  | cons a l ih =>
    obtain ⟨ha, hl⟩ := List.forall_mem_cons.1 hf
    exact Does.bind (ha s hI) fun _ s' _ hI => ih hI hl

theorem Looks.bind (hx : Looks x s P) (hf : ∀ a, P a → Does T L K (f a) s R) :
    Does T L K (x >>= f) s R := by
  refine ends_bind.2 (Ends.imp hx ?_ ?_)
  · rintro a _ ⟨rfl, ha⟩
    exact hf a ha
  · rintro _ _ rfl
    exact .refl

theorem Looks.bindLook {P' : β → Prop} (hx : Looks x s P) (hf : ∀ a, P a → Looks (f a) s P') :
    Looks (x >>= f) s P' := by
  refine ends_bind.2 (Ends.imp hx ?_ fun _ _ h => h)
  rintro a _ ⟨rfl, ha⟩
  exact hf a ha

theorem looks_get : Looks get s (s = ·) := ends_get.2 ⟨rfl, rfl⟩

theorem looks_check {x : Except PullerError α} : Looks (check x) s fun a => x = .ok a := by
  cases x with
  | ok a => exact ends_pure.2 ⟨rfl, rfl⟩
  | error error => exact ends_throw.2 rfl

end

/-! ## What the operations do -/

/-- However the operation follows links, the path leads to itself. -/
def LeadsToItself (disk : Disk Bytes) (follow : Bool) (path : Path) : Prop :=
  ∀ n place, disk.walk follow n [] path = .ok place → place = path

theorem leadsToItself {disk : Disk Bytes} {follow : Bool} {path : Path} (h : disk.Resolved path) :
    LeadsToItself disk follow path :=
  fun _ _ hwalk => h.walk_eq hwalk

section
variable {env : StoreEnv} {T : Touch → Prop} {L : Path → LinkTarget → Prop} {K : Path → Entry Bytes → Prop}
  {s : StoreState} {follow : Bool} {path root p : Path}

theorem looks_entryAt : Looks (entryAt env follow path) s fun _ => True := by
  unfold entryAt
  refine looks_get.bindLook fun _ _ => ?_
  dsimp only
  split <;> exact ends_pure.2 ⟨rfl, trivial⟩

theorem looks_fileAt (h : LeadsToItself s.disk true path) : Looks (fileAt env path) s fun file =>
    ∀ bytes, file = some bytes → s.disk.get path = some (.file bytes) := by
  unfold fileAt entryAt
  refine Looks.bindLook (P := fun entry => ∀ e, entry = some e → s.disk.get path = some e) ?_ ?_
  · refine looks_get.bindLook ?_
    rintro _ rfl
    dsimp only
    split
    next place hwalk =>
      rw [h _ _ hwalk]
      exact ends_pure.2 ⟨rfl, fun _ h => h⟩
    next => exact ends_pure.2 ⟨rfl, fun _ h => by cases h⟩
  · intro entry hentry
    split
    next bytes =>
      refine ends_pure.2 ⟨rfl, fun bytes' hbytes => ?_⟩
      cases hbytes
      exact hentry _ rfl
    next => exact ends_pure.2 ⟨rfl, fun _ h => by cases h⟩

theorem looks_locate (h : LeadsToItself s.disk follow path) :
    Looks (locate env follow path) s (path = ·) := by
  unfold locate
  refine looks_get.bindLook fun _ hs => ?_
  subst hs
  split
  next place hwalk => exact ends_pure.2 ⟨rfl, (h _ _ hwalk).symm⟩
  next => exact ends_throw.2 rfl

theorem looks_safeJoin_real {field : String} {relative : List Char} (hroot : s.disk.Resolved root) :
    Looks (safeJoin env root field relative) s fun candidate => root <+: candidate ∧
      s.disk.real env.steps [] (root ++ pathParts relative) = some candidate := by
  unfold safeJoin
  refine ends_ite.2 ⟨fun _ => ends_throw.2 rfl, fun _ => ?_⟩
  refine ends_ite.2 ⟨fun _ => ends_throw.2 rfl, fun _ => ?_⟩
  refine looks_get.bindLook ?_
  rintro _ rfl
  dsimp only
  split
  next candidate rootResolved hcandidate hrootResolved =>
    refine ends_ite.2 ⟨fun hunder => ends_pure.2 ⟨rfl, ?_, hcandidate⟩, fun _ => ends_throw.2 rfl⟩
    have hself : s.disk.Resolved ([] ++ root) := hroot
    rw [Disk.real_of_resolved hself hrootResolved] at hunder
    exact List.isPrefixOf_iff_prefix.1 hunder
  next => exact ends_throw.2 rfl

/-- What `_safe_join` lets through has no links on it, and is below the directory. -/
theorem looks_safeJoin {field : String} {relative : List Char} (hroot : s.disk.Resolved root) :
    Looks (safeJoin env root field relative) s fun candidate =>
      s.disk.Resolved candidate ∧ root <+: candidate := by
  have hslash : s.disk.Resolved [] := hroot.mono (List.nil_prefix)
  refine Ends.imp (looks_safeJoin_real hroot) (fun candidate _ ⟨hs, hunder, hreal⟩ => ?_)
    fun _ _ h => h
  exact ⟨hs, Disk.resolved_real (hslash.plain [] List.prefix_rfl) hslash hreal, hunder⟩

theorem does_change {touched : List Touch} {disk : Disk Bytes} (hT : ∀ t ∈ touched, T t)
    (hL : ∀ q target, disk.get q = some (.link target) →
      s.disk.get q = some (.link target) ∨ L q target)
    (hK : ∀ q entry, K q entry → s.disk.get q = some entry → disk.get q = some entry) :
    Does T L K (change touched disk) s fun _ s' => s'.disk = disk :=
  ends_modify.2 ⟨⟨⟨touched, rfl, hT⟩, hL, hK⟩, rfl⟩

theorem does_osMkdir {existOk : Bool} (h : LeadsToItself s.disk false path) (hT : T (.mkdir path)) :
    Does T L K (osMkdir env existOk path) s fun _ s' =>
      existOk = false → s'.disk.get path = some .dir := by
  unfold osMkdir
  refine (looks_locate h).bind ?_
  rintro _ rfl
  refine looks_get.bind ?_
  rintro _ rfl
  dsimp only
  split
  next hnone =>
    refine Does.imp (does_change (List.forall_mem_singleton.2 hT) (fun q target hq => .inl ?_)
      fun q bytes _ hq => ?_) fun _ s' hs' _ => ?_
    · rw [Disk.get_set] at hq
      split at hq
      next => cases hq
      next => exact hq
    · rw [Disk.get_set, if_neg]
      · exact hq
      · rintro rfl
        rw [hnone] at hq
        cases hq
    · rw [hs', Disk.get_set, if_pos rfl]
  next =>
    refine looks_entryAt.bind fun _ _ => ?_
    split
    · refine .ite (fun hok => .pure fun hno => ?_) fun _ => .raise
      rw [hno] at hok
      cases hok
    · exact .raise

/-- The parents that are missing are made too. -/
theorem does_mkdir {existOk : Bool} (h : s.disk.Resolved path)
    (hT : ∀ p, p <+: path → T (.mkdir p)) : Does T NoLinks K (mkdir env existOk path) s fun _ s' =>
      existOk = false → s'.disk.get path = some .dir := by
  obtain ⟨names, rfl⟩ : ∃ names : List Name, path = names.reverse := ⟨path.reverse, by simp⟩
  unfold mkdir
  rw [List.reverse_reverse]
  induction names generalizing s existOk with
  | nil =>
    unfold makeDirs
    refine .ite (fun hok => .pure fun hno => ?_) fun _ => .raise
    rw [hno] at hok
    cases hok
  | cons name up ih =>
    have hup : up.reverse <+: (name :: up).reverse := by simp
    unfold makeDirs
    refine looks_get.bind ?_
    rintro _ rfl
    have hself {s : StoreState} (h : s.disk.Resolved (name :: up).reverse) :
        Does T NoLinks K (osMkdir env existOk (name :: up).reverse) s fun _ s' =>
          existOk = false → s'.disk.get (name :: up).reverse = some .dir :=
      does_osMkdir (leadsToItself h) (hT _ List.prefix_rfl)
    dsimp only
    split
    · refine Does.bind (ih (h.mono hup) fun p hp => hT p (hp.trans hup)) fun _ s' hc _ => ?_
      exact hself (hc.resolved_of_noLinks h)
    · exact hself h

theorem does_writeBytes {append : Bool} {bytes : Bytes} (h : LeadsToItself s.disk true path)
    (hT : T (.write path)) (hK : ∀ entry, ¬ K path entry) :
    Does T NoLinks K (writeBytes env append path bytes) s fun _ _ => True := by
  have hset (entry : Bytes) : Does T NoLinks K
      (change [.write path] (s.disk.set path (.file entry))) s fun _ _ => True := by
    refine Does.imp (does_change (List.forall_mem_singleton.2 hT) (fun q target hq => .inl ?_)
      fun q bytes hKq hq => ?_) fun _ _ _ => trivial
    · rw [Disk.get_set] at hq
      split at hq
      next => cases hq
      next => exact hq
    · rw [Disk.get_set, if_neg]
      · exact hq
      · rintro rfl
        exact hK _ hKq
  unfold writeBytes
  refine (looks_locate h).bind ?_
  rintro _ rfl
  refine looks_get.bind ?_
  rintro _ rfl
  dsimp only
  split
  · exact hset _
  · exact hset _
  · exact .raise

theorem does_unlink {missingOk : Bool} (h : LeadsToItself s.disk false path)
    (hT : T (.remove path)) (hK : ∀ entry, entry ≠ .dir → ¬ K path entry) :
    Does T NoLinks K (unlink env missingOk path) s fun _ _ => True := by
  unfold unlink
  refine looks_get.bind ?_
  rintro _ rfl
  have hpure : Does T NoLinks K (if missingOk then pure () else raise .os) s fun _ _ => True :=
    .ite (fun _ => .pure trivial) fun _ => .raise
  dsimp only
  split
  · exact hpure
  · exact .raise
  next place hwalk =>
    rw [h _ _ hwalk]
    split
    · exact hpure
    · exact .raise
    next entry hdir hentry =>
      refine Does.imp (does_change (List.forall_mem_singleton.2 hT) (fun q target hq => .inl ?_)
        fun q entry' hKq hq => ?_) fun _ _ _ => trivial
      · rw [Disk.get_remove] at hq
        split at hq
        next => cases hq
        next => exact hq
      · rw [Disk.get_remove, if_neg]
        · exact hq
        · rintro rfl
          rw [hq] at hentry
          cases hentry
          exact hK _ hdir hKq

theorem does_rmtree (h : LeadsToItself s.disk false path) (hT : T (.remove path))
    (hK : ∀ q entry, path <+: q → ¬ K q entry) : Does T NoLinks K (rmtree env path) s fun _ _ => True := by
  unfold rmtree
  refine (looks_locate h).bind ?_
  rintro _ rfl
  refine looks_get.bind ?_
  rintro _ rfl
  dsimp only
  split
  · refine Does.imp (does_change (List.forall_mem_singleton.2 hT) (fun q target hq => .inl ?_)
      fun q bytes hKq hq => ?_) fun _ _ _ => trivial
    · rw [Disk.get_removeTree] at hq
      split at hq
      next => cases hq
      next => exact hq
    · rw [Disk.get_removeTree, if_neg fun hp => hK q _ hp hKq]
      exact hq
  · exact .raise

/-- A link is made where there is nothing yet. -/
theorem does_symlink {target : LinkTarget} (h : LeadsToItself s.disk false path)
    (hT : T (.link path)) (hL : s.disk.get path = none → L path target) :
    Does T L K (symlink env target path) s fun _ _ => True := by
  unfold symlink
  refine (looks_locate h).bind ?_
  rintro _ rfl
  refine looks_get.bind ?_
  rintro _ rfl
  dsimp only
  split
  next hnone =>
    have hne {q : Path} {entry : Entry Bytes} (hq : s.disk.get q = some entry) : q ≠ path := by
      rintro rfl
      rw [hnone] at hq
      cases hq
    refine Does.imp (does_change (List.forall_mem_singleton.2 hT) (fun q target' hq => ?_)
      fun q entry _ hq => ?_) fun _ _ _ => trivial
    · rw [Disk.get_set] at hq
      split at hq
      next hpath =>
        cases hq
        exact .inr (hpath ▸ hL hnone)
      next => exact .inl hq
    · rw [Disk.get_set, if_neg (hne hq)]
      exact hq
  next => exact .raise

/-- A file takes the place of another. -/
theorem does_replace {source target : Path} (hsource : LeadsToItself s.disk false source)
    (htarget : LeadsToItself s.disk false target) (hTs : T (.remove source)) (hTt : T (.write target))
    (hL : ∀ rest link, s.disk.get (source ++ rest) = some (.link link) →
      rest = [] ∨ s.disk.get source = some .dir → L (target ++ rest) link)
    (hKs : ∀ q entry, source <+: q → ¬ K q entry) (hKt : ∀ q entry, target <+: q → ¬ K q entry) :
    Does T L K (replace env source target) s fun _ _ => True := by
  have hT : ∀ t ∈ [Touch.remove source, Touch.write target], T t :=
    List.forall_mem_cons.2 ⟨hTs, List.forall_mem_singleton.2 hTt⟩
  unfold replace
  refine (looks_locate hsource).bind ?_
  rintro _ rfl
  refine (looks_locate htarget).bind ?_
  rintro _ rfl
  refine looks_get.bind ?_
  rintro _ rfl
  have hmoved (hdir : s.disk.get source = some .dir) : Does T L K
      (change [.remove source, .write target] (s.disk.move source target)) s fun _ _ => True := by
    refine Does.imp (does_change hT (fun q link hq => ?_) fun q bytes hKq hq => ?_) fun _ _ _ => trivial
    · by_cases hunder : target <+: q
      · obtain ⟨rest, rfl⟩ := hunder
        rw [Disk.get_move_of_prefix] at hq
        exact .inr (hL rest link hq (.inr hdir))
      · rw [Disk.get_move_of_not_prefix hunder] at hq
        split at hq
        next => cases hq
        next => exact .inl hq
    · rw [Disk.get_move_of_not_prefix fun hp => hKt q _ hp hKq, if_neg fun hp => hKs q _ hp hKq]
      exact hq
  dsimp only
  split
  · exact .raise
  next hdir =>
    refine .ite (fun _ => .pure trivial) fun _ => .ite (fun _ => .raise) fun _ => ?_
    split
    · exact hmoved hdir
    · exact .ite (fun _ => hmoved hdir) fun _ => .raise
    · exact .raise
  next entry _ hentry =>
    refine .ite (fun _ => .pure trivial) fun _ => ?_
    split
    · exact .raise
    · refine Does.imp (does_change hT (fun q link hq => ?_) fun q bytes hKq hq => ?_)
        fun _ _ _ => trivial
      · rw [Disk.get_set, Disk.get_remove] at hq
        split at hq
        next hq' =>
          have hlink := hL [] link (by rw [List.append_nil, hentry, hq]) (.inl rfl)
          rw [List.append_nil] at hlink
          exact .inr (hq' ▸ hlink)
        next =>
          split at hq
          next => cases hq
          next => exact .inl hq
      · have hnot : q ≠ target := by
          rintro rfl
          exact hKt q _ List.prefix_rfl hKq
        have hnot' : q ≠ source := by
          rintro rfl
          exact hKs q _ List.prefix_rfl hKq
        rw [Disk.get_set, if_neg hnot, Disk.get_remove, if_neg hnot']
        exact hq

end

/-! ## The parts of a pull -/

/-- What is touched is in the directory, or is a directory on the way to it that was missing. -/
def Inside (own : Path) (t : Touch) : Prop := own <+: t.path ∨ ∃ p, t = .mkdir p ∧ p <+: own

/-- Nothing has to stay. -/
abbrev KeepNone (_ : Path) (_ : Entry Bytes) : Prop := False

section
variable {env : StoreEnv} {own blobsDir refsDir snapshotsDir tmp target p path : Path}
  {s s' : StoreState}

theorem inside_mkdir (h : own <+: path) (hp : p <+: path) : Inside own (.mkdir p) :=
  (List.prefix_or_prefix_of_prefix h hp).imp id fun hp => ⟨p, rfl, hp⟩

theorem does_tick {T : Touch → Prop} {L : Path → LinkTarget → Prop} {K : Path → Entry Bytes → Prop} :
    Does T L K tick s fun _ _ => True :=
  .returns rfl ⟨⟨⟨[], (List.append_nil _).symm, by simp⟩, fun _ _ h => .inl h, fun _ _ _ h => h⟩, trivial⟩

/-- A partial file takes the place of the blob. -/
theorem does_publish {bytes : Bytes} (htarget : s.disk.Resolved target) (htmp : s.disk.Resolved tmp)
    (hownTarget : own <+: target) (hownTmp : own <+: tmp)
    (hfile : s.disk.get tmp = some (.file bytes)) :
    Does (Inside own) NoLinks KeepNone (replace env tmp target) s fun _ _ => True := by
  refine does_replace (leadsToItself htmp) (leadsToItself htarget) (.inl hownTmp) (.inl hownTarget)
    (fun rest link hlink hrest => ?_) (fun _ _ _ => id) fun _ _ _ => id
  rcases hrest with rfl | hdir
  · rw [List.append_nil, hfile] at hlink
    cases hlink
  · rw [hfile] at hdir
    cases hdir

theorem does_publishBlob {blobHash : Name} {size : Nat} (htarget : s.disk.Resolved target)
    (htmp : s.disk.Resolved tmp) (hownTarget : own <+: target) (hownTmp : own <+: tmp) :
    Does (Inside own) NoLinks KeepNone (publishBlob env blobHash size target tmp) s
      fun _ _ => True := by
  have hdiscard {error : PullerError} : Does (Inside own) NoLinks KeepNone
      (do unlink env true tmp; (raise error : PullM Unit)) s fun _ _ => True :=
    (does_unlink (leadsToItself htmp) (.inl hownTmp) fun _ _ => id).bind fun _ _ _ _ => .raise
  unfold publishBlob
  refine (looks_fileAt (leadsToItself htmp)).bind fun file hfile => ?_
  split
  · exact .raise
  next content =>
    refine .ite (fun _ => hdiscard) fun _ => ?_
    split
    · exact hdiscard
    · exact does_publish htarget htmp hownTarget hownTmp (hfile content rfl)

theorem does_downloadBlob {blobHash : Name} {size start : Nat} (htarget : s.disk.Resolved target)
    (htmp : s.disk.Resolved tmp) (hownTarget : own <+: target) (hownTmp : own <+: tmp) :
    Does (Inside own) NoLinks KeepNone (downloadBlob env blobHash size target tmp start) s
      fun _ _ => True := by
  unfold downloadBlob
  refine does_tick.bind fun request s hc _ => ?_
  have htarget := hc.resolved_of_noLinks htarget
  have htmp := hc.resolved_of_noLinks htmp
  refine .ite (fun _ => .raise) fun _ => ?_
  refine looks_check.bind fun _ _ => ?_
  refine (does_writeBytes (leadsToItself htmp) (.inl hownTmp) fun _ => id).bind fun _ s hc _ => ?_
  refine .ite (fun _ => .throw) fun _ => ?_
  exact does_publishBlob (hc.resolved_of_noLinks htarget) (hc.resolved_of_noLinks htmp) hownTarget
    hownTmp

theorem does_pullBlob {entry : BlobEntry} (hown : own <+: blobsDir)
    (h : s.disk.Resolved blobsDir) :
    Does (Inside own) NoLinks KeepNone (pullBlob env blobsDir entry) s fun _ _ => True := by
  unfold pullBlob
  refine looks_check.bind fun blobHash _ => ?_
  refine (looks_safeJoin h).bind fun target ⟨htarget, hunder⟩ => ?_
  have hownTarget := hown.trans hunder
  refine (looks_fileAt (leadsToItself htarget)).bind fun _ _ => ?_
  refine .ite (fun _ => .pure trivial) fun _ => ?_
  refine (looks_safeJoin h).bind fun tmp ⟨htmp, hunder⟩ => ?_
  have hownTmp := hown.trans hunder
  -- what is there of the partial file is discarded, published or resumed
  have hrestart : Does (Inside own) NoLinks KeepNone
      (do unlink env true tmp; downloadBlob env blobHash entry.size target tmp 0) s
      fun _ _ => True :=
    (does_unlink (leadsToItself htmp) (.inl hownTmp) fun _ _ => id).bind fun _ s hc _ =>
      does_downloadBlob (hc.resolved_of_noLinks htarget) (hc.resolved_of_noLinks htmp) hownTarget
        hownTmp
  refine (looks_fileAt (leadsToItself htmp)).bind fun file hfile => ?_
  split
  · exact does_downloadBlob htarget htmp hownTarget hownTmp
  next old =>
    refine .ite (fun _ => hrestart) fun _ => .ite (fun _ => .ite (fun _ => ?_) fun _ => hrestart) ?_
    · exact does_publish htarget htmp hownTarget hownTmp (hfile old rfl)
    · exact fun _ => does_downloadBlob htarget htmp hownTarget hownTmp

theorem does_pullRef {ref : RefEntry} (hown : own <+: refsDir) (h : s.disk.Resolved refsDir) :
    Does (Inside own) NoLinks KeepNone (pullRef env refsDir ref) s fun _ _ => True := by
  unfold pullRef
  refine (looks_safeJoin h).bind fun refFile ⟨hrefFile, hunder⟩ => ?_
  have hownFile := hown.trans hunder
  refine (does_mkdir (hrefFile.mono (List.dropLast_prefix _)) fun p hp =>
    inside_mkdir hownFile (hp.trans (List.dropLast_prefix _))).bind fun _ s hc _ => ?_
  exact does_writeBytes (leadsToItself (hc.resolved_of_noLinks hrefFile)) (.inl hownFile) fun _ => id

end

/-! ## Laying out a snapshot -/

/-- Strictly below the directory. -/
def Below (dir q : Path) (_ : LinkTarget) : Prop := dir <+: q ∧ q ≠ dir

/-- While a snapshot is laid out in `tmp`: on the way to the place that it is to take, the links are
those to blobs. -/
structure Laying (blobsDir tmp commitDir : Path) (s : StoreState) : Prop where
  blobs : s.disk.Resolved blobsDir
  resolved : s.disk.Resolved tmp
  links : ∀ q target, q <+: commitDir → s.disk.get q = some (.link target) → tmp <+: q ∧
    ∃ blob bytes, s.disk.Resolved blob ∧ s.disk.get blob = some (.file bytes) ∧ blobsDir <+: blob ∧
      target = ⟨false, relpath blob q.dropLast⟩
  noDots : dotdot ∉ commitDir

/-- The blobs stay meanwhile. -/
def BlobsStay (blobsDir q : Path) (_ : Entry Bytes) : Prop := blobsDir <+: q

/-- The blobs stay, and so does the directory of the snapshot. -/
def SnapshotStays (blobsDir tmp q : Path) (entry : Entry Bytes) : Prop :=
  blobsDir <+: q ∨ q = tmp ∧ entry = .dir

section
variable {env : StoreEnv} {own blobsDir snapshotsDir tmp commitDir path : Path} {s s' : StoreState}
  {T : Touch → Prop} {L : Path → LinkTarget → Prop}

theorem Laying.of_changes (h : Laying blobsDir tmp commitDir s)
    (hc : Changes T NoLinks (BlobsStay blobsDir) s s') : Laying blobsDir tmp commitDir s' where
  blobs := hc.resolved_of_noLinks h.blobs
  resolved := hc.resolved_of_noLinks h.resolved
  links q target hq hlink := by
    obtain ⟨hbelow, blob, bytes, hblob, hfile, hunder, htarget⟩ :=
      h.links q target hq ((hc.links q target hlink).resolve_right id)
    exact ⟨hbelow, blob, bytes, hc.resolved_of_noLinks hblob, hc.kept _ _ hunder hfile, hunder,
      htarget⟩
  noDots := h.noDots

/-- One more link to a blob. -/
theorem Laying.of_link (h : Laying blobsDir tmp commitDir s) {blob : Path} {bytes : Bytes}
    (hblob : s.disk.Resolved blob) (hfile : s.disk.get blob = some (.file bytes))
    (hunder : blobsDir <+: blob) (hpath : tmp <+: path) (hne : path ≠ tmp)
    (hapart : ∀ q, blobsDir <+: q → ¬ tmp <+: q)
    (hc : Changes T (fun q target => q = path ∧ target = ⟨false, relpath blob path.dropLast⟩)
      (BlobsStay blobsDir) s s') : Laying blobsDir tmp commitDir s' := by
  have hresolved {p : Path} (hp : s.disk.Resolved p) (hnot : ¬ path <+: p) : s'.disk.Resolved p :=
    hc.resolved (fun q target hq => hq.1 ▸ hnot) hp
  have hblobs {p : Path} (hp : blobsDir <+: p) (hresolvedp : s.disk.Resolved p) :
      s'.disk.Resolved p :=
    hresolved hresolvedp fun hpre => hapart p hp (hpath.trans hpre)
  refine ⟨hblobs List.prefix_rfl h.blobs, hresolved h.resolved fun hpre => hne ?_,
    fun q target hq hlink => ?_, h.noDots⟩
  · exact hpre.eq_of_length_le hpath.length_le
  · rcases hc.links q target hlink with hold | ⟨rfl, rfl⟩
    · obtain ⟨hbelow, blob, bytes, hblob, hfile, hunder, htarget⟩ := h.links q target hq hold
      exact ⟨hbelow, blob, bytes, hblobs hunder hblob, hc.kept _ _ hunder hfile, hunder, htarget⟩
    · exact ⟨hpath, blob, bytes, hblobs hunder hblob, hc.kept _ _ hunder hfile, hunder, rfl⟩

/-- A link to a blob leads to a file. -/
theorem deadEnd_of_blob {q blob : Path} {bytes : Bytes} {disk : Disk Bytes}
    (hblob : disk.Resolved blob) (hfile : disk.get blob = some (.file bytes))
    (hnot : ¬ blob <+: q.dropLast)
    (hlink : disk.get q = some (.link ⟨false, relpath blob q.dropLast⟩)) : disk.DeadEnd q := by
  intro target htarget n follow more hmore p hwalk
  rw [hlink] at htarget
  cases htarget
  let k := commonLength blob q.dropLast
  have hwalk : disk.walk follow n q.dropLast
      (List.replicate (q.dropLast.length - k) dotdot ++ (blob.drop k ++ more)) = .ok p := by
    rw [← List.append_assoc]
    exact hwalk
  obtain ⟨m, hwalk⟩ := Disk.walk_up hwalk
  have hle : k ≤ q.dropLast.length := commonLength_le
  have htake : blob.take k = q.dropLast.take k := take_commonLength
  rw [Nat.sub_sub_self hle, ← htake] at hwalk
  have hfull : blob.take k ++ blob.drop k = blob := List.take_append_drop k blob
  refine Disk.walk_below_file (by rw [hfull]; exact hfile) (by rw [hfull]; exact hblob) ?_ hmore hwalk
  intro hnil
  rw [hnil, List.append_nil, htake] at hfull
  exact hnot (hfull ▸ List.take_prefix _ _)

/-- The place that the snapshot is to take is where its path says. -/
theorem Laying.commitDir_leads (h : Laying blobsDir tmp commitDir s)
    (hapart : ∀ q, blobsDir <+: q → ¬ tmp <+: q) : LeadsToItself s.disk false commitDir := by
  intro n place hwalk
  refine Disk.walk_eq h.noDots (fun q hq _ target htarget => ?_) (fun hno => by cases hno) hwalk
  obtain ⟨hbelow, blob, bytes, hblob, hfile, hunder, rfl⟩ := h.links q target hq htarget
  refine deadEnd_of_blob hblob hfile (fun hpre => ?_) htarget _ htarget
  exact hapart q (hunder.trans (hpre.trans (List.dropLast_prefix _))) hbelow

theorem does_clearLink (h : s.disk.Resolved path) (hT : T (.remove path))
    {K : Path → Entry Bytes → Prop} (hK : ∀ entry, entry ≠ .dir → ¬ K path entry) :
    Does T NoLinks K (clearLink env path) s fun _ _ => True := by
  unfold clearLink
  refine looks_entryAt.bind fun _ _ => looks_entryAt.bind fun _ _ => ?_
  exact .ite (fun _ => does_unlink (leadsToItself h) hT hK) fun _ => .pure trivial

/-- A step that makes no link, while a snapshot is laid out. -/
theorem Does.laying {α : Type} {x : PullM α} {Q : α → StoreState → Prop}
    (hx : Does T NoLinks (SnapshotStays blobsDir tmp) x s Q)
    (h : Laying blobsDir tmp commitDir s ∧ s.disk.get tmp = some .dir) :
    Does T L (SnapshotStays blobsDir tmp) x s fun _ s' =>
      (Laying blobsDir tmp commitDir s' ∧ s'.disk.get tmp = some .dir) ∧
        ∀ p, s.disk.Resolved p → s'.disk.Resolved p := by
  refine Does.imp hx.quiet fun _ s' ⟨_, hc⟩ => ?_
  have hblobs := hc.mono (fun _ _ h => h) fun q entry (hq : BlobsStay blobsDir q entry) => .inl hq
  exact ⟨⟨h.1.of_changes hblobs, hc.kept _ _ (.inr ⟨rfl, rfl⟩) h.2⟩,
    fun p hp => hc.resolved_of_noLinks hp⟩

theorem does_pullLink {link : LinkEntry} (hown : own <+: tmp)
    (hapart : ∀ q, blobsDir <+: q → ¬ tmp <+: q)
    (h : Laying blobsDir tmp commitDir s ∧ s.disk.get tmp = some .dir) :
    Does (Inside own) (Below tmp) (SnapshotStays blobsDir tmp) (pullLink env blobsDir tmp link) s
      fun _ s' => Laying blobsDir tmp commitDir s' ∧ s'.disk.get tmp = some .dir := by
  unfold pullLink
  refine looks_check.bind fun blobHash _ => ?_
  refine (looks_safeJoin h.1.resolved).bind fun linkPath ⟨hlinkPath, hbelow⟩ => ?_
  have hownLink := hown.trans hbelow
  have hparent : linkPath.dropLast <+: linkPath := List.dropLast_prefix _
  refine (Does.laying (does_mkdir (hlinkPath.mono hparent) fun p hp =>
    inside_mkdir hownLink (hp.trans hparent)) h).bind fun _ s _ ⟨h, hkept⟩ => ?_
  have hlinkPath := hkept _ hlinkPath
  refine (looks_safeJoin h.1.blobs).bind fun blob ⟨hblob, hunder⟩ => ?_
  refine (looks_fileAt (leadsToItself hblob)).bind fun file hfile => ?_
  split
  · exact .raise
  next bytes =>
    have hfile := hfile bytes rfl
    have hfree (entry : Entry Bytes) (hentry : entry ≠ .dir) :
        ¬ SnapshotStays blobsDir tmp linkPath entry := by
      rintro (hblobs | ⟨-, hdir⟩)
      · exact hapart linkPath hblobs hbelow
      · exact hentry hdir
    have hcleared : Does (Inside own) NoLinks (SnapshotStays blobsDir tmp) (clearLink env linkPath) s
        fun _ _ => True := does_clearLink hlinkPath (.inl hownLink) hfree
    refine (Does.laying hcleared h).bind fun _ s hc ⟨h, hkept⟩ => ?_
    have hlinkPath := hkept _ hlinkPath
    have hfile := hc.kept blob _ (.inl hunder) hfile
    have hlink : Inside own (.link linkPath) := .inl hownLink
    by_cases hne : linkPath = tmp
    · have hno : s.disk.get linkPath = none → False := by
        rw [hne, h.2]
        exact fun hno => by cases hno
      exact (Does.laying (does_symlink (leadsToItself hlinkPath) hlink hno) h).imp
        fun _ _ h => h.1
    · have hlinked : Does (Inside own)
          (fun q target => q = linkPath ∧ target = ⟨false, relpath blob linkPath.dropLast⟩)
          (SnapshotStays blobsDir tmp)
          (symlink env ⟨false, relpath blob linkPath.dropLast⟩ linkPath) s fun _ _ => True :=
        does_symlink (leadsToItself hlinkPath) hlink fun _ => ⟨rfl, rfl⟩
      refine Does.imp (hlinked.changes.mono ?_ fun _ _ h => h) fun _ s' ⟨_, hc⟩ => ⟨?_, ?_⟩
      · rintro q target ⟨rfl, -⟩
        exact ⟨hbelow, hne⟩
      · have hblobs := hc.mono (fun _ _ h => h)
          fun q entry (hq : BlobsStay blobsDir q entry) => Or.inl hq
        exact h.1.of_link (hkept _ hblob) hfile hunder hbelow hne hapart hblobs
      · exact hc.kept _ _ (.inr ⟨rfl, rfl⟩) h.2

theorem looks_locate_any {follow : Bool} : Looks (locate env follow path) s fun _ => True := by
  unfold locate
  refine looks_get.bindLook fun _ _ => ?_
  split
  · exact ends_pure.2 ⟨rfl, trivial⟩
  · exact ends_throw.2 rfl

/-- Whatever `os.replace` raises, nothing has been replaced. -/
theorem replace_raises {source target : Path} :
    Ends (replace env source target) s (fun _ _ => True) fun _ s' => s' = s := by
  have hchange {touched : List Touch} {disk : Disk Bytes} :
      Ends (change touched disk) s (fun _ _ => True) fun _ s' => s' = s := ends_modify.2 trivial
  have hraise {error : PullerError} :
      Ends (raise error : PullM Unit) s (fun _ _ => True) fun _ s' => s' = s := ends_throw.2 rfl
  have hpure : Ends (pure () : PullM Unit) s (fun _ _ => True) fun _ s' => s' = s :=
    ends_pure.2 trivial
  unfold replace
  refine ends_bind.2 (Ends.imp looks_locate_any ?_ fun _ _ h => h)
  rintro source _ ⟨rfl, -⟩
  refine ends_bind.2 (Ends.imp looks_locate_any ?_ fun _ _ h => h)
  rintro target _ ⟨rfl, -⟩
  refine ends_bind.2 (ends_get.2 ?_)
  dsimp only
  split
  · exact hraise
  · refine ends_ite.2 ⟨fun _ => hpure, fun _ => ends_ite.2 ⟨fun _ => hraise, fun _ => ?_⟩⟩
    split
    · exact hchange
    · exact ends_ite.2 ⟨fun _ => hchange, fun _ => hraise⟩
    · exact hraise
  · refine ends_ite.2 ⟨fun _ => hpure, fun _ => ?_⟩
    split
    · exact hraise
    · exact hchange

theorem does_clearPlace (h : LeadsToItself s.disk false path) (hT : T (.remove path))
    {K : Path → Entry Bytes → Prop} (hK : ∀ q entry, path <+: q → ¬ K q entry) :
    Does T NoLinks K (clearPlace env path) s fun _ _ => True := by
  unfold clearPlace
  refine looks_entryAt.bind fun _ _ => ?_
  split
  · exact .pure trivial
  · exact does_rmtree h hT hK
  · exact does_unlink h hT fun entry _ => hK path entry List.prefix_rfl

/-- The links are laid out in a directory of the snapshot's own, which then takes its place. -/
theorem does_pullSnapshot {entry : SnapshotEntry} (hown : own <+: snapshotsDir)
    (hapart : ∀ q, blobsDir <+: q → ¬ snapshotsDir <+: q)
    (hblobs : s.disk.Resolved blobsDir) (hsnapshots : s.disk.Resolved snapshotsDir) :
    Does (Inside own) (Below snapshotsDir) KeepNone (pullSnapshot env blobsDir snapshotsDir entry) s
      fun _ _ => True := by
  unfold pullSnapshot
  refine looks_check.bind fun commit _ => ?_
  refine (looks_safeJoin hsnapshots).bind fun commitDir ⟨hcommitDir, hcommit⟩ => ?_
  refine does_tick.quiet.bind fun draw s _ ⟨_, hc⟩ => ?_
  have hsnapshots := hc.resolved_of_noLinks hsnapshots
  refine (looks_safeJoin hsnapshots).bind fun tmp ⟨htmp, hbelow⟩ => ?_
  have hownTmp := hown.trans hbelow
  refine (does_mkdir htmp fun p hp => inside_mkdir hownTmp hp).quiet.bind fun _ s _ ⟨hdir, hc'⟩ => ?_
  have hcommitDir := hc'.resolved_of_noLinks (hc.resolved_of_noLinks hcommitDir)
  have htmp := hc'.resolved_of_noLinks htmp
  have happart (q : Path) (hq : blobsDir <+: q) : ¬ tmp <+: q := fun h => hapart q hq (hbelow.trans h)
  have hlaying : Laying blobsDir tmp commitDir s ∧ s.disk.get tmp = some .dir :=
    ⟨⟨hc'.resolved_of_noLinks (hc.resolved_of_noLinks hblobs), htmp,
      fun q target hq hlink => absurd ⟨target, hlink⟩ (hcommitDir.plain q hq), hcommitDir.noDots⟩,
      hdir rfl⟩
  -- until the snapshot takes its place, new links are in its own directory
  have hlaid : Does (Inside own) (Below tmp) KeepNone
      (entry.links.forM (pullLink env blobsDir tmp)) s
      fun _ s' => Laying blobsDir tmp commitDir s' ∧ s'.disk.get tmp = some .dir :=
    (Does.forM hlaying fun link _ s h => does_pullLink hownTmp happart h).mono (fun _ _ h => h)
      fun _ _ h => h.elim
  have hcleared {s : StoreState} (h : Laying blobsDir tmp commitDir s) :
      Does (Inside own) (Below tmp) KeepNone (clearPlace env commitDir) s
        fun _ s' => Laying blobsDir tmp commitDir s' := by
    have hclear : Does (Inside own) NoLinks (BlobsStay blobsDir) (clearPlace env commitDir) s
        fun _ _ => True :=
      does_clearPlace (h.commitDir_leads happart) (.inl (hown.trans hcommit)) fun q _ hq hblobs =>
        hapart q hblobs (hcommit.trans hq)
    exact (hclear.quiet.imp fun _ _ h' => h.of_changes h'.2).mono (fun _ _ h => h) fun _ _ h => h.elim
  have hmoved {s : StoreState} (h : Laying blobsDir tmp commitDir s) :
      Does (Inside own) (Below snapshotsDir) KeepNone (replace env tmp commitDir) s
        fun _ _ => True := by
    refine does_replace (leadsToItself h.resolved) (h.commitDir_leads happart) (.inl hownTmp)
      (.inl (hown.trans hcommit)) (fun rest link hlink hrest => ⟨?_, fun heq => ?_⟩)
      (fun _ _ _ => id) fun _ _ _ => id
    · exact hcommit.trans (List.prefix_append _ _)
    · have hnil : rest = [] := by
        have hlength := congrArg List.length heq
        rw [List.length_append] at hlength
        exact List.length_eq_zero_iff.1 (by have := hcommit.length_le; omega)
      rw [hnil, List.append_nil] at hlink
      exact h.resolved.plain tmp List.prefix_rfl ⟨link, hlink⟩
  have htmpLinks (q : Path) (target : LinkTarget) (h : Below tmp q target) : Below snapshotsDir q target := by
    refine ⟨hbelow.trans h.1, fun heq => h.2 ?_⟩
    rw [heq] at h ⊢
    exact hbelow.eq_of_length_le h.1.length_le
  have hbody : Ends (do
        entry.links.forM (pullLink env blobsDir tmp)
        clearPlace env commitDir
        replace env tmp commitDir) s
      (fun _ s' => Changes (Inside own) (Below snapshotsDir) KeepNone s s')
      fun _ s' => Changes (Inside own) (Below tmp) KeepNone s s' := by
    refine ends_bind.2 (Ends.imp hlaid (fun _ s₁ ⟨hc₁, h₁, _⟩ => ?_) fun _ _ h => h)
    refine ends_bind.2 (Ends.imp (hcleared h₁) (fun _ s₂ ⟨hc₂, h₂⟩ => ?_) fun _ _ h => hc₁.trans h)
    have hc := hc₁.trans hc₂
    refine Ends.imp (Ends.and (hmoved h₂) replace_raises) (fun _ s₃ h => ?_) ?_
    · exact (hc.mono htmpLinks fun _ _ h => h).trans h.1.1
    · rintro _ _ ⟨-, rfl⟩
      exact hc
  refine ends_tryCatch.2 (hbody.imp (fun _ _ h => ⟨h, trivial⟩) fun e s' hc => ?_)
  have htmp := hc.resolved (fun q target hq hpre => hq.2 (hpre.eq_of_length_le hq.1.length_le)) htmp
  have hremoved : Does (Inside own) NoLinks KeepNone (rmtree env tmp) s' fun _ _ => True :=
    does_rmtree (leadsToItself htmp) (.inl hownTmp) fun _ _ _ => id
  have hc := hc.mono htmpLinks fun _ _ h => h
  have hnone {s'' : StoreState} (h : Changes (Inside own) NoLinks KeepNone s' s'') :
      Changes (Inside own) (Below snapshotsDir) KeepNone s s'' :=
    hc.trans (h.mono (fun _ _ h => h.elim) fun _ _ h => h)
  refine ends_bind.2 (ends_tryCatch.2 (Ends.imp hremoved (fun _ _ h => ?_) fun _ _ h => ?_))
  · exact ends_throw.2 (hnone h.1)
  · exact ends_pure.2 (ends_throw.2 (hnone h))

end

/-! ## The whole pull -/

section
variable {env : StoreEnv} {own : Path} {manifest : Manifest} {s : StoreState}

/-- The directories of a model, without links on the way. -/
structure Sound (own : Path) (s : StoreState) : Prop where
  blobs : s.disk.Resolved (own ++ [blobsName])
  refs : s.disk.Resolved (own ++ [refsName])
  snapshots : s.disk.Resolved (own ++ [snapshotsName])

theorem Sound.of_changes {T : Touch → Prop} {K : Path → Entry Bytes → Prop} {s' : StoreState}
    (h : Sound own s) (hc : Changes T (Below (own ++ [snapshotsName])) K s s') : Sound own s' := by
  -- a new link is deeper than any of them
  have hdeep {name : Name} (q : Path) (target : LinkTarget)
      (hq : Below (own ++ [snapshotsName]) q target) : ¬ q <+: own ++ [name] := by
    intro hpre
    have hle := hpre.length_le
    rw [List.length_append, List.length_singleton] at hle
    exact hq.2 (hq.1.eq_of_length_le (by simpa using hle)).symm
  exact ⟨hc.resolved hdeep h.blobs, hc.resolved hdeep h.refs, hc.resolved hdeep h.snapshots⟩

/-- A part of the pull that needs the directories leaves them as they are. -/
theorem Does.sound {α : Type} {T : Touch → Prop} {K : Path → Entry Bytes → Prop} {x : PullM α}
    {Q : α → StoreState → Prop} (hx : Does T (Below (own ++ [snapshotsName])) K x s Q)
    (h : Sound own s) : Does T (Below (own ++ [snapshotsName])) K x s fun _ s' => Sound own s' :=
  hx.changes.imp fun _ _ hc => h.of_changes hc.2

theorem does_pullLocked (h : Sound own s) :
    Does (Inside own) (Below (own ++ [snapshotsName])) KeepNone (pullLocked env own manifest) s
      fun _ _ => True := by
  have hown (name : Name) : own <+: own ++ [name] := List.prefix_append _ _
  have hmade {name : Name} {s : StoreState} (h : Sound own s)
      (hdir : s.disk.Resolved (own ++ [name])) : Does (Inside own) (Below (own ++ [snapshotsName]))
        KeepNone (mkdir env true (own ++ [name])) s fun _ s' => Sound own s' :=
    (does_mkdir hdir fun p hp => inside_mkdir (hown name) hp).quiet.sound h
  have hapart (q : Path) (hblobs : own ++ [blobsName] <+: q) : ¬ own ++ [snapshotsName] <+: q := by
    intro hsnapshots
    have heq := List.IsPrefix.eq_of_length_le
      (List.prefix_of_prefix_length_le hblobs hsnapshots (by simp)) (by simp)
    exact absurd (List.append_cancel_left heq) (by decide)
  unfold pullLocked
  refine (hmade h h.blobs).bind fun _ s _ h => ?_
  refine (hmade h h.refs).bind fun _ s _ h => ?_
  refine (hmade h h.snapshots).bind fun _ s _ h => ?_
  refine (Does.forM h fun entry _ s h => ?_).bind fun _ s _ h => ?_
  · exact (does_pullBlob (hown _) h.blobs).quiet.sound h
  refine (Does.forM h fun entry _ s h => ?_).bind fun _ s _ h => ?_
  · exact (does_pullSnapshot (hown _) hapart h.blobs h.snapshots).sound h
  refine (Does.forM h fun ref _ s h => ?_).imp fun _ _ _ => trivial
  exact (does_pullRef (hown _) h.refs).quiet.sound h

end

/-- All that a pull touches, on a disk. -/
def touched (env : StoreEnv) (storeRoot : Path) (manifest : Manifest) (disk : Disk Bytes) :
    List Touch :=
  (endState (pullModel env storeRoot manifest) ⟨disk, [], 0⟩).touched

/-- The manifest's model has the directory `name` of the store at `root`. -/
structure Owns (env : StoreEnv) (storeRoot : Path) (manifest : Manifest) (disk : Disk Bytes)
    (root : Path) (name : Name) : Prop where
  store : disk.real env.steps [] storeRoot = some root
  model : safeLeafName "model_dir_name" manifest.modelDirName = .ok name

/-- The model's directory and those in it. -/
def modelDirs (own : Path) : List Path :=
  [own, own ++ [blobsName], own ++ [refsName], own ++ [snapshotsName]]

theorem properName_of_safeLeafName {field : String} {value : List Char} {name : Name}
    (h : safeLeafName field value = .ok name) : ProperName name := by
  unfold safeLeafName at h
  dsimp only at h
  split at h
  · cases h
  next hok =>
    cases h
    simp only [not_or] at hok
    exact ⟨hok.1, hok.2.2.2.1, hok.2.2.2.2.1, hok.2.2.2.2.2.1⟩

/-- Whatever the pull meets: what it touches is in the model's own directory, or a directory on the
way to the store that was missing. -/
theorem touched_inside (env : StoreEnv) (storeRoot : Path) (manifest : Manifest) (disk : Disk Bytes)
    (hslash : ¬ disk.IsLink [])
    (hplain : ∀ root name, Owns env storeRoot manifest disk root name →
      ∀ dir ∈ modelDirs (root ++ [name]), ¬ disk.IsLink dir) :
    ∀ t ∈ touched env storeRoot manifest disk, ∃ root name,
      Owns env storeRoot manifest disk root name ∧
        (root ++ [name] <+: t.path ∨ ∃ p, t = .mkdir p ∧ p <+: root) := by
  let T (t : Touch) : Prop := ∃ root name, Owns env storeRoot manifest disk root name ∧
    (root ++ [name] <+: t.path ∨ ∃ p, t = .mkdir p ∧ p <+: root)
  suffices hdoes : Does T (fun _ _ => True) KeepNone (pullModel env storeRoot manifest) ⟨disk, [], 0⟩
      fun _ _ => True by
    have hall {s : StoreState} (hc : Changes T (fun _ _ => True) KeepNone ⟨disk, [], 0⟩ s) :
        ∀ t ∈ s.touched, T t := by
      obtain ⟨more, hmore, hT⟩ := hc.touched
      rwa [hmore]
    exact (ends_state (P := fun s : StoreState => ∀ t ∈ s.touched, T t)).1
      (Ends.imp hdoes (fun _ _ h => hall h.1) fun _ _ h => hall h)
  unfold pullModel
  refine looks_check.bind fun name hname => ?_
  refine looks_get.bind ?_
  rintro _ rfl
  dsimp only
  split
  · exact .throw
  next root hroot =>
    have howns : Owns env storeRoot manifest disk root name := ⟨hroot, hname⟩
    have hproper := properName_of_safeLeafName hname
    have hempty : disk.Resolved [] :=
      ⟨fun q hq => by rwa [List.prefix_nil.1 hq], List.not_mem_nil⟩
    have hresolved {path : Path} {part : Name} (h : disk.Resolved path) (hpart : part ≠ dotdot)
        (hlink : ¬ disk.IsLink (path ++ [part])) : disk.Resolved (path ++ [part]) := by
      refine ⟨h.plain.append hlink, fun hdots => ?_⟩
      rcases List.mem_append.1 hdots with hdots | hdots
      · exact h.noDots hdots
      · exact hpart (List.mem_singleton.1 hdots).symm
    have hstore : disk.Resolved root := Disk.resolved_real hslash hempty hroot
    have hlinks := hplain root name howns
    have hmodel : disk.Resolved (root ++ [name]) :=
      hresolved hstore hproper.ne_dotdot (hlinks _ (by simp [modelDirs]))
    have hsound : Sound (root ++ [name]) ⟨disk, [], 0⟩ :=
      ⟨hresolved hmodel (by decide) (hlinks _ (by simp [modelDirs])),
        hresolved hmodel (by decide) (hlinks _ (by simp [modelDirs])),
        hresolved hmodel (by decide) (hlinks _ (by simp [modelDirs]))⟩
    refine (looks_safeJoin_real hstore).bind fun modelDir ⟨_, hreal⟩ => ?_
    rw [(pathParts_of_proper hproper).1] at hreal
    have hself : disk.Resolved ([] ++ (root ++ [name])) := hmodel
    rw [Disk.real_of_resolved hself hreal]
    refine ((does_pullLocked hsound).mono (fun _ _ _ => trivial) fun _ _ h => h).widen ?_
    rintro t (hinside | ⟨p, rfl, hp⟩)
    · exact ⟨root, name, howns, .inl hinside⟩
    · rcases List.prefix_concat_iff.1 hp with rfl | hp
      · exact ⟨root, name, howns, .inl List.prefix_rfl⟩
      · exact ⟨root, name, howns, .inr ⟨p, rfl, hp⟩⟩

/-- A server that has each blob. -/
def oneByteServer : StoreEnv where
  sha256 _ := digestName
  uuidHex _ := "0".toList
  stream _ _ _ := ⟨200, none, [1]⟩
  breaks _ := false
  steps := 100

def storeAt : Path := ["models".toList]

def oneBlobManifest : Manifest := blobsOnly [⟨"ab".toList, 1⟩]

def orgModel : Path := storeAt ++ ["models--org--name".toList]

/-- A store with the model's directory, and what there is of it already. -/
def storeWith (entries : List (Path × Entry Bytes)) : Disk Bytes where
  entries := [(storeAt, .dir), (["other".toList], .dir), (orgModel, .dir)] ++ entries

/-- The blob is a link that leads elsewhere. -/
def linkedBlob : Disk Bytes := storeWith [(orgModel ++ [blobsName], .dir),
  (orgModel ++ [blobsName, "ab".toList], .link ⟨true, ["other".toList, "ab".toList]⟩)]

/-- The directory of the blobs is a link that leads elsewhere. -/
def linkedBlobs : Disk Bytes := storeWith [(orgModel ++ [blobsName], .link ⟨true, ["other".toList]⟩)]

/-- A link that is in `blobs` already is not followed out of it. -/
theorem touched_inside_linkedBlob :
    touched oneByteServer storeAt oneBlobManifest linkedBlob ≠ [] ∧
      ∀ t ∈ touched oneByteServer storeAt oneBlobManifest linkedBlob,
        ∃ root name, Owns oneByteServer storeAt oneBlobManifest linkedBlob root name ∧
          (root ++ [name] <+: t.path ∨ ∃ p, t = .mkdir p ∧ p <+: root) := by
  refine ⟨?_, touched_inside _ _ _ _ ?_ fun root name howns => ?_⟩
  · intro hnil
    have hlength : (touched oneByteServer storeAt oneBlobManifest linkedBlob).length ≠ 0 := by
      decide +kernel
    exact hlength (by rw [hnil]; rfl)
  · rintro ⟨target, htarget⟩
    cases htarget
  · obtain rfl : storeAt = root := Option.some.inj howns.store
    obtain rfl : "models--org--name".toList = name := Except.ok.inj howns.model
    intro dir hdir
    have hnone : ∀ dir ∈ modelDirs (storeAt ++ ["models--org--name".toList]),
        linkedBlob.get dir = some .dir ∨ linkedBlob.get dir = none := by
      simp only [modelDirs, List.forall_mem_cons]
      exact ⟨.inl rfl, .inl rfl, .inr rfl, .inr rfl, by simp⟩
    rintro ⟨target, htarget⟩
    rcases hnone dir hdir with h | h
    · rw [h] at htarget
      cases htarget
    · rw [h] at htarget
      cases htarget

/-- A link in place of `blobs` leads the download out of the store, and a missing store is made. -/
theorem not_touched_inside :
    (¬ ∀ (env : StoreEnv) (storeRoot : Path) (manifest : Manifest) (disk : Disk Bytes),
      ¬ disk.IsLink [] → disk.real env.steps [] storeRoot = some storeRoot →
      disk.get storeRoot = some .dir →
      ∀ t ∈ touched env storeRoot manifest disk, ∃ root name,
        Owns env storeRoot manifest disk root name ∧ root ++ [name] <+: t.path) ∧
    ¬ ∀ (env : StoreEnv) (storeRoot : Path) (manifest : Manifest) (disk : Disk Bytes),
      (∀ path, ¬ disk.IsLink path) →
      ∀ t ∈ touched env storeRoot manifest disk, ∃ root name,
        Owns env storeRoot manifest disk root name ∧ root ++ [name] <+: t.path := by
  constructor
  · intro h
    have hmem : Touch.write ["other".toList, "ab".toList] ∈
        touched oneByteServer storeAt oneBlobManifest linkedBlobs := by decide +kernel
    have hslash : ¬ linkedBlobs.IsLink [] := by
      rintro ⟨target, htarget⟩
      cases htarget
    obtain ⟨root, name, howns, hunder⟩ := h _ _ _ _ hslash rfl rfl _ hmem
    obtain rfl : storeAt = root := Option.some.inj howns.store
    obtain rfl : "models--org--name".toList = name := Except.ok.inj howns.model
    exact absurd (List.isPrefixOf_iff_prefix.2 hunder) (by decide)
  · intro h
    have hmem : Touch.mkdir storeAt ∈ touched oneByteServer storeAt oneBlobManifest ⟨[]⟩ := by
      decide +kernel
    have hno (path : Path) : ¬ (⟨[]⟩ : Disk Bytes).IsLink path := by
      rintro ⟨target, htarget⟩
      cases htarget
    obtain ⟨root, name, howns, hunder⟩ := h _ _ _ _ hno _ hmem
    obtain rfl : storeAt = root := Option.some.inj howns.store
    have hle := hunder.length_le
    rw [List.length_append] at hle
    exact absurd hle (by simp [Touch.path])

end Store

end LlmPort.ModelSync
