import LlmPort.Cli.EnvGen

/-!
# What a regenerated env file keeps

Every secret key that is in the old file keeps its value. The tokens of a service are preserved key
by key, so a file that has some of them gets fresh ones beside them; and the URL of the Langfuse
database is put together from the database of Postgres itself.
-/

namespace LlmPort.Cli

open Text ModelSync Transition

variable {env existing : Env} {key value : String} {fresh : FreshSecrets}
  {adminPassword : String} {old : Option (List Char)} {g : Generation}

/-! ## Fresh variables -/

instance : Inhabited Secret := ⟨⟨"", nofun⟩⟩

def noSecrets : FreshSecrets :=
  ⟨default, default, default, default, default, default, default, default, default, default,
    default, default, default, default, default, default, default, default⟩

theorem baseItems_keys (fresh : FreshSecrets) (adminPassword : String) :
    (baseItems fresh adminPassword).map (·.1) = (baseItems noSecrets "").map (·.1) := rfl

theorem nodup_baseItems (fresh : FreshSecrets) (adminPassword : String) :
    ((baseItems fresh adminPassword).map (·.1)).Nodup := by
  simp [baseItems]

/-- The keys that nothing but the dict itself sets. -/
def ownKeys : List String :=
  secretKeys ++ ["LANGFUSE_DATABASE_URL", "POSTGRES_USER", "POSTGRES_DB"]

theorem secretKeys_notMem : "LANGFUSE_DATABASE_URL" ∉ secretKeys ∧
    "POSTGRES_USER" ∉ secretKeys ∧ "POSTGRES_DB" ∉ secretKeys := by
  simp [secretKeys]

theorem ownKeys_url : "LANGFUSE_DATABASE_URL" ∈ ownKeys :=
  List.mem_append_right _ List.mem_cons_self

theorem ownKeys_user : "POSTGRES_USER" ∈ ownKeys :=
  List.mem_append_right _ (List.mem_cons_of_mem _ List.mem_cons_self)

theorem ownKeys_db : "POSTGRES_DB" ∈ ownKeys :=
  List.mem_append_right _ (List.mem_cons_of_mem _ (List.mem_cons_of_mem _ List.mem_cons_self))

theorem ownKeys_notMem_tuneItems (hkey : key ∈ ownKeys) (cores : Nat) :
    ∀ item ∈ tuneItems cores, item.1 ≠ key := by
  have hdisjoint : ∀ item ∈ tuneItems cores, item.1 ∉ ownKeys := by
    simp [tuneItems, ownKeys, secretKeys, TunedService.envPrefix]
  rintro item hitem rfl
  exact hdisjoint item hitem hkey

theorem ownKeys_notMem_modules (hkey : key ∈ ownKeys) (profile : String) :
    ∀ item ∈ moduleEnvVars profile, item.1 ≠ key := by
  have hdisjoint : ∀ mod ∈ modules, ∀ item ∈ mod.2, item.1 ∉ ownKeys := by
    simp only [modules, List.forall_mem_cons]
    simp [ownKeys, secretKeys]
  intro item hitem heq
  rw [moduleEnvVars] at hitem
  split at hitem
  next => cases hitem
  next mod hfind => exact hdisjoint mod (List.mem_of_find?_eq_some hfind) item hitem (heq ▸ hkey)

theorem get_defaultEnvVars (hkey : key ∈ ownKeys) (cores : Nat) (profiles : List String) :
    (defaultEnvVars fresh adminPassword cores profiles).get key = some value ↔
      (key, value) ∈ baseItems fresh adminPassword := by
  have hprofiles (env : Env) :
      (profiles.foldl (fun env profile => env.update (moduleEnvVars profile)) env).get key =
        env.get key := by
    induction profiles generalizing env with
    | nil => rfl
    | cons profile profiles ih =>
      rw [List.foldl_cons, ih, Dict.get_update_of_notMem (ownKeys_notMem_modules hkey profile)]
  rw [defaultEnvVars, hprofiles, Dict.get_update_of_notMem (ownKeys_notMem_tuneItems hkey cores),
    Dict.get_eq_some_iff, Dict.entries_update (nodup_baseItems fresh adminPassword)]
  rfl

theorem Secret.oneLine (secret : Secret) : OneLine secret.text.toList :=
  oneLine_of_isToken secret.tokens

theorem Secret.stripped (secret : Secret) : stripped secret.text = secret.text := by
  rw [Cli.stripped, strip_of_isToken secret.tokens, String.ofList_toList]

theorem toList_langfuseUrl (password : String) : (langfuseUrl password).toList =
    "postgresql://postgres:".toList ++ password.toList ++ "@postgres:5432/langfuse".toList := by
  have hurl : langfuseUrl password =
      "postgresql://postgres:" ++ password ++ "@postgres:5432/langfuse" := rfl
  rw [hurl, String.toList_append, String.toList_append]

theorem oneLine_urlHead : OneLine "postgresql://postgres:".toList := oneLine_ofList rfl

theorem oneLine_langfuseUrl (h : OneLine value.toList) : OneLine (langfuseUrl value).toList := by
  have htail : OneLine "@postgres:5432/langfuse".toList := oneLine_ofList rfl
  rw [toList_langfuseUrl]
  exact (oneLine_urlHead.append h).append htail

theorem oneLine_baseItems (h : OneLine adminPassword.toList) :
    ∀ item ∈ baseItems fresh adminPassword, OneLine item.2.toList := by
  have hadmin : OneLine
      (if adminPassword = "" then fresh.grafanaAdminPassword.text else adminPassword).toList := by
    split
    next => exact Secret.oneLine _
    next => exact h
  have hurl := oneLine_langfuseUrl fresh.postgresPassword.oneLine
  simp only [baseItems, List.forall_mem_cons]
  and_intros
  all_goals first
    | with_reducible exact Secret.oneLine _
    | with_reducible assumption
    | exact oneLine_ofList rfl
    | nofun

theorem oneLine_toString (n : Nat) : OneLine (toString n).toList := by
  refine oneLine_of_isToken fun c hc => ?_
  have hdigit : c.isDigit = true :=
    Nat.isDigit_of_mem_toDigits (b := 10) (by decide) (by decide) (by simpa using hc)
  rw [isToken, Char.isAlphanum, hdigit]
  simp

theorem oneLine_tuneItems (cores : Nat) : ∀ item ∈ tuneItems cores, OneLine item.2.toList := by
  simp only [tuneItems, List.map_cons, List.map_nil, List.flatMap_cons, List.flatMap_nil,
    List.cons_append, List.nil_append, List.forall_mem_cons]
  and_intros
  all_goals first | exact oneLine_toString _ | nofun

/-- What a dict can be updated with, and still be written. -/
def WritableItems (items : List (String × String)) : Prop :=
  ∀ item ∈ items, isKey item.1 = true ∧ OneLine item.2.toList

theorem Env.Writable.update {items : List (String × String)} (h : env.Writable)
    (hitems : WritableItems items) : Env.Writable (env.update items) where
  keys item hitem := (Dict.mem_of_mem_update hitem).elim (h.keys item) fun h => (hitems item h).1
  values item hitem :=
    (Dict.mem_of_mem_update hitem).elim (h.values item) fun h => (hitems item h).2

theorem isKey_baseItems : ∀ item ∈ baseItems fresh adminPassword, isKey item.1 = true := by
  simp only [baseItems, List.forall_mem_cons]
  and_intros
  all_goals first
    | exact isKey_ofList nofun rfl
    | nofun

theorem TunedService.isKey_envPrefix (svc : TunedService) : isKey svc.envPrefix = true := by
  cases svc <;> exact isKey_ofList nofun rfl

theorem isKey_tuneItems (cores : Nat) : ∀ item ∈ tuneItems cores, isKey item.1 = true := by
  simp only [tuneItems, List.map_cons, List.map_nil, List.flatMap_cons, List.flatMap_nil,
    List.cons_append, List.nil_append, List.forall_mem_cons]
  and_intros
  all_goals first
    | exact isKey_append (TunedService.isKey_envPrefix _) (isKey_ofList nofun rfl)
    | nofun

theorem isKey_secretKeys : ∀ key ∈ secretKeys, isKey key = true := by
  simp only [secretKeys, List.forall_mem_cons]
  and_intros
  all_goals first
    | exact isKey_ofList nofun rfl
    | nofun

theorem writableItems_modules : ∀ mod ∈ modules, WritableItems mod.2 := by
  simp only [modules, WritableItems, List.forall_mem_cons]
  and_intros
  all_goals first
    | exact isKey_ofList nofun rfl
    | exact oneLine_ofList rfl
    | nofun

theorem writable_defaultEnvVars (h : OneLine adminPassword.toList) (cores : Nat)
    (profiles : List String) : (defaultEnvVars fresh adminPassword cores profiles).Writable := by
  have hmodule (profile : String) : WritableItems (moduleEnvVars profile) := by
    rw [moduleEnvVars]
    split
    next => exact nofun
    next mod hfind => exact writableItems_modules mod (List.mem_of_find?_eq_some hfind)
  have hprofiles (env : Env) (henv : env.Writable) :
      Env.Writable
        (profiles.foldl (fun env profile => env.update (moduleEnvVars profile)) env) := by
    induction profiles generalizing env with
    | nil => exact henv
    | cons profile profiles ih => exact ih _ (henv.update (hmodule profile))
  have hbase : WritableItems (baseItems fresh adminPassword) := fun item hitem =>
    ⟨isKey_baseItems item hitem, oneLine_baseItems h item hitem⟩
  have htune : WritableItems (tuneItems cores) := fun item hitem =>
    ⟨isKey_tuneItems cores item hitem, oneLine_tuneItems cores item hitem⟩
  have hempty : Env.Writable .empty := ⟨nofun, nofun⟩
  exact hprofiles _ ((hempty.update hbase).update htune)

/-! ## Preserving secrets -/

theorem get_preserveKey (existing env : Env) (key other : String) :
    (preserveKey existing env key).get other =
      if other = key then (env.get other).map (existing.get other).getD else env.get other := by
  rw [preserveKey]
  split
  next previous value hprevious hvalue =>
    rw [Dict.get_set]
    split
    next heq => rw [heq, hvalue, hprevious]; rfl
    next => rfl
  next hnone =>
    split
    next heq =>
      rw [heq]
      cases hvalue : env.get key with
      | none => rfl
      | some value =>
        cases hprevious : existing.get key with
        | none => rfl
        | some previous => exact (hnone previous value hprevious hvalue).elim
    next => rfl

theorem get_preserveKeys (existing : Env) (keys : List String) (env : Env) (key : String) :
    (keys.foldl (preserveKey existing) env).get key =
      if key ∈ keys then (env.get key).map (existing.get key).getD else env.get key := by
  induction keys generalizing env with
  | nil => rfl
  | cons first keys ih =>
    rw [List.foldl_cons, ih, get_preserveKey]
    by_cases hfirst : key = first
    · have hagain : ((env.get key).map (existing.get key).getD).map (existing.get key).getD =
          (env.get key).map (existing.get key).getD := by
        cases env.get key with
        | none => rfl
        | some value => cases existing.get key <;> rfl
      rw [if_pos hfirst, hagain, ite_self, if_pos (hfirst ▸ List.mem_cons_self)]
    · rw [if_neg hfirst]
      simp only [List.mem_cons, hfirst, false_or]

/-- The variables with the secrets that were there. -/
def kept (existing env : Env) : Env := secretKeys.foldl (preserveKey existing) env

theorem preserve_of_password {pw url : String} (hpw : existing.get "POSTGRES_PASSWORD" = some pw)
    (hurl : (kept existing env).get "LANGFUSE_DATABASE_URL" = some url)
    (huser : (kept existing env).get "POSTGRES_USER" = some "postgres")
    (hdb : (kept existing env).get "POSTGRES_DB" = some "postgres") :
    preserve existing env = (kept existing env).set "LANGFUSE_DATABASE_URL"
      ("postgresql://postgres:" ++ pw ++ "@postgres:5432/postgres") := by
  have hhead : "postgresql://" ++ "postgres" ++ ":" = "postgresql://postgres:" := by simp
  have htail : "@postgres:5432/" ++ "postgres" = "@postgres:5432/postgres" := by simp
  rw [kept] at hurl huser hdb
  rw [preserve, hpw, hurl, huser, hdb]
  dsimp only
  rw [Option.getD_some, Option.getD_some, hhead, String.append_assoc, htail]
  rfl

theorem preserve_of_no_password (hpw : existing.get "POSTGRES_PASSWORD" = none) :
    preserve existing env = kept existing env := by
  rw [preserve, hpw]
  rfl

theorem Env.Writable.set (h : env.Writable) (hkey : isKey key = true)
    (hvalue : OneLine value.toList) : Env.Writable (env.set key value) := by
  have hset : Env.Writable (env.update [(key, value)]) :=
    h.update (List.forall_mem_singleton.2 ⟨hkey, hvalue⟩)
  exact hset

theorem writable_kept (h : env.Writable)
    (hvalues : ∀ item ∈ existing.entries, OneLine item.2.toList) :
    (kept existing env).Writable := by
  have hkeys := isKey_secretKeys
  rw [kept]
  generalize secretKeys = keys at hkeys
  induction keys generalizing env with
  | nil => exact h
  | cons key keys ih =>
    refine ih ?_ fun other hother => hkeys other (List.mem_cons_of_mem _ hother)
    rw [preserveKey]
    split
    next previous value hprevious _ =>
      exact h.set (hkeys key List.mem_cons_self)
        (hvalues _ (Dict.get_eq_some_iff.1 hprevious))
    next => exact h

theorem get_kept_of_notMem (hkey : key ∉ secretKeys) :
    (kept existing env).get key = env.get key := by
  rw [kept, get_preserveKeys, if_neg hkey]

theorem get_preserve_secret (hkey : key ∈ secretKeys) :
    (preserve existing env).get key = (env.get key).map (existing.get key).getD := by
  have hne : key ≠ "LANGFUSE_DATABASE_URL" := fun heq => secretKeys_notMem.1 (heq ▸ hkey)
  have hkept : (kept existing env).get key = (env.get key).map (existing.get key).getD := by
    rw [kept, get_preserveKeys, if_pos hkey]
  rw [← hkept, preserve]
  split
  next => rw [Dict.get_set, if_neg hne, kept]
  next => rw [kept]

/-! ## What is read afterwards -/

namespace Generation

theorem get_env (hkey : key ∈ ownKeys) :
    g.env.get key = some value ↔ (key, value) ∈ baseItems g.fresh g.adminPassword :=
  get_defaultEnvVars hkey g.physicalCores g.profiles

theorem exists_get_env (hkey : key ∈ secretKeys) : ∃ value, g.env.get key = some value := by
  have hall : ∀ key ∈ secretKeys, key ∈ (baseItems noSecrets "").map (·.1) := by
    simp [secretKeys, baseItems]
  have hmem := hall key hkey
  rw [← baseItems_keys g.fresh g.adminPassword] at hmem
  obtain ⟨⟨_, value⟩, hitem, rfl⟩ := List.mem_map.1 hmem
  exact ⟨value, (get_env (List.mem_append_left _ hkey)).2 hitem⟩

theorem get_env_url : g.env.get "LANGFUSE_DATABASE_URL" =
    some (langfuseUrl g.fresh.postgresPassword.text) := by
  rw [get_env ownKeys_url]
  exact List.mem_of_getElem? (i := 8) rfl

theorem get_env_user : g.env.get "POSTGRES_USER" = some "postgres" := by
  rw [get_env ownKeys_user]
  exact List.mem_cons_self

theorem get_env_db : g.env.get "POSTGRES_DB" = some "postgres" := by
  rw [get_env ownKeys_db]
  exact List.mem_cons_of_mem _ (List.mem_cons_of_mem _ List.mem_cons_self)

theorem token_mem_secretKeys {service : DownstreamService} (hkey : key ∈ service.tokenKeys) :
    key ∈ secretKeys := by
  revert key
  cases service <;> simp [DownstreamService.tokenKeys, secretKeys]

theorem get_env_token {service : DownstreamService} (hkey : key ∈ service.tokenKeys) :
    g.env.get key = some (service.token g.fresh).text := by
  rw [get_env (List.mem_append_left _ (token_mem_secretKeys hkey))]
  cases service with
  | mcp =>
    rcases List.mem_cons.1 hkey with rfl | hkey
    · exact List.mem_of_getElem? (i := 25) rfl
    · rcases List.mem_cons.1 hkey with rfl | hkey
      · exact List.mem_of_getElem? (i := 26) rfl
      · rw [List.mem_singleton.1 hkey]
        exact List.mem_of_getElem? (i := 27) rfl
  | skills =>
    rcases List.mem_cons.1 hkey with rfl | hkey
    · exact List.mem_of_getElem? (i := 28) rfl
    · rcases List.mem_cons.1 hkey with rfl | hkey
      · exact List.mem_of_getElem? (i := 29) rfl
      · rw [List.mem_singleton.1 hkey]
        exact List.mem_of_getElem? (i := 30) rfl
  | rag =>
    rcases List.mem_cons.1 hkey with rfl | hkey
    · exact List.mem_of_getElem? (i := 31) rfl
    · rw [List.mem_singleton.1 hkey]
      exact List.mem_of_getElem? (i := 32) rfl

/-- The URL with the password of the old file. -/
theorem preserve_env {pw : String} (hpw : existing.get "POSTGRES_PASSWORD" = some pw) :
    preserve existing g.env = (kept existing g.env).set "LANGFUSE_DATABASE_URL"
      ("postgresql://postgres:" ++ pw ++ "@postgres:5432/postgres") := by
  obtain ⟨hurl, huser, hdb⟩ := secretKeys_notMem
  have hkept := g.get_env_url
  rw [← get_kept_of_notMem hurl] at hkept
  refine preserve_of_password hpw hkept ?_ ?_
  · rw [get_kept_of_notMem huser, get_env_user]
  · rw [get_kept_of_notMem hdb, get_env_db]

theorem writable_preserve (g : Generation) (old : Option (List Char)) :
    (preserve (readEnvFile old) g.env).Writable := by
  have henv : g.env.Writable := writable_defaultEnvVars g.adminPasswordLine g.physicalCores
    g.profiles
  have hkept : (kept (readEnvFile old) g.env).Writable :=
    writable_kept henv fun item hitem => (readEnvFile_values hitem).1
  cases hpw : (readEnvFile old).get "POSTGRES_PASSWORD" with
  | none => rwa [preserve_of_no_password hpw]
  | some pw =>
    have htail : OneLine "@postgres:5432/postgres".toList := oneLine_ofList rfl
    have hline := (readEnvFile_values (Dict.get_eq_some_iff.1 hpw)).1
    rw [preserve_env hpw]
    refine hkept.set (isKey_ofList nofun rfl) ?_
    rw [String.toList_append, String.toList_append]
    exact (oneLine_urlHead.append hline).append htail

theorem get_regenerated (g : Generation) (old : Option (List Char)) (key : String) :
    (g.regenerated old).get key =
      ((preserve (readEnvFile old) g.env).get key).map stripped :=
  get_readEnvFile_envText (writable_preserve g old) g.timestamp key

/-- A secret key has its old value, or the fresh one without the spaces around it. -/
theorem get_regenerated_secret (hkey : key ∈ secretKeys) (value : String) :
    (g.regenerated old).get key = some value ↔
      (readEnvFile old).get key = some value ∨
        ((readEnvFile old).get key = none ∧ (g.env.get key).map stripped = some value) := by
  obtain ⟨fresh, hfresh⟩ := g.exists_get_env hkey
  rw [get_regenerated, get_preserve_secret hkey, hfresh]
  cases hold : (readEnvFile old).get key with
  | none => simp
  | some previous =>
    have hvalue := (readEnvFile_values (Dict.get_eq_some_iff.1 hold)).2
    simp [hvalue]

/-! ## The database -/

theorem stripped_of_ends {a b : Char} {m : List Char} (h : value.toList = a :: (m ++ [b]))
    (ha : isSpace a = false) (hb : isSpace b = false) : Cli.stripped value = value := by
  rw [Cli.stripped, h, strip_eq_trim, trim_cons_of_neg ha,
    List.rdropWhile_concat_neg _ _ _ (by simp [hb]), ← h, String.ofList_toList]

theorem stripped_langfuseUrl (password : String) :
    Cli.stripped (langfuseUrl password) = langfuseUrl password := by
  have hends : (langfuseUrl password).toList = 'p' :: (("ostgresql://postgres:".toList ++
      password.toList ++ "@postgres:5432/langfus".toList) ++ ['e']) := by
    rw [toList_langfuseUrl, List.append_assoc _ _ ['e']]
    rfl
  exact stripped_of_ends hends (by decide) (by decide)

/-- With a password in the old file the URL is that of another database. -/
theorem get_regenerated_url {pw : String}
    (hpw : (readEnvFile old).get "POSTGRES_PASSWORD" = some pw) (password : String) :
    (g.regenerated old).get "LANGFUSE_DATABASE_URL" ≠ some (langfuseUrl password) := by
  have hends : ("postgresql://postgres:" ++ pw ++ "@postgres:5432/postgres").toList =
      'p' :: (("ostgresql://postgres:".toList ++ pw.toList ++
        "@postgres:5432/postgre".toList) ++ ['s']) := by
    rw [String.toList_append, String.toList_append, List.append_assoc _ _ ['s']]
    rfl
  intro hurl
  rw [get_regenerated, preserve_env hpw, Dict.get_set, if_pos rfl, Option.map_some,
    stripped_of_ends hends (by decide) (by decide)] at hurl
  have hlists := congrArg String.toList (Option.some.inj hurl)
  rw [toList_langfuseUrl, String.toList_append, String.toList_append] at hlists
  have hlength : "@postgres:5432/postgres".toList.length =
      "@postgres:5432/langfuse".toList.length := by simp
  have hne : "@postgres:5432/postgres".toList ≠ "@postgres:5432/langfuse".toList := by simp
  exact hne (List.append_inj' hlists hlength).2

theorem get_regenerated_url_of_none (hpw : (readEnvFile old).get "POSTGRES_PASSWORD" = none) :
    (g.regenerated old).get "LANGFUSE_DATABASE_URL" =
      some (langfuseUrl g.fresh.postgresPassword.text) := by
  rw [get_regenerated, preserve_of_no_password hpw,
    get_kept_of_notMem secretKeys_notMem.1, get_env_url, Option.map_some, stripped_langfuseUrl]

/-! ## The tokens of a service -/

/-- All tokens of the service are in the old file, or those that are there are the fresh one. -/
def TokensTogether (g : Generation) (existing : Env) (service : DownstreamService) : Prop :=
  (∀ key ∈ service.tokenKeys, existing.get key ≠ none) ∨
    ∀ key ∈ service.tokenKeys, ∀ value, existing.get key = some value →
      value = (service.token g.fresh).text

theorem get_regenerated_token {service : DownstreamService} (hkey : key ∈ service.tokenKeys)
    (value : String) : (g.regenerated old).get key = some value ↔
      (readEnvFile old).get key = some value ∨
        ((readEnvFile old).get key = none ∧ value = (service.token g.fresh).text) := by
  rw [get_regenerated_secret (token_mem_secretKeys hkey), get_env_token hkey, Option.map_some,
    Secret.stripped, Option.some_inj, @eq_comm _ _ value]

theorem agree_regenerated_iff {service : DownstreamService} (h : (readEnvFile old).Agree service) :
    (g.regenerated old).Agree service ↔ g.TokensTogether (readEnvFile old) service := by
  constructor
  · rintro ⟨token, htoken⟩
    by_cases hall : ∀ key ∈ service.tokenKeys, (readEnvFile old).get key ≠ none
    · exact .inl hall
    · push Not at hall
      obtain ⟨first, hfirst, hnone⟩ := hall
      have hfresh := htoken first hfirst _ ((get_regenerated_token hfirst _).2 (.inr ⟨hnone, rfl⟩))
      refine .inr fun key hkey value hvalue => ?_
      rw [hfresh]
      exact htoken key hkey value ((get_regenerated_token hkey _).2 (.inl hvalue))
  · rintro (hall | hfresh)
    · obtain ⟨token, htoken⟩ := h
      refine ⟨token, fun key hkey value hvalue => ?_⟩
      rcases (get_regenerated_token hkey value).1 hvalue with hold | ⟨hnone, -⟩
      · exact htoken key hkey value hold
      · exact (hall key hkey hnone).elim
    · refine ⟨(service.token g.fresh).text, fun key hkey value hvalue => ?_⟩
      rcases (get_regenerated_token hkey value).1 hvalue with hold | ⟨-, heq⟩
      · exact hfresh key hkey value hold
      · exact heq

/-- The regenerated file keeps the installation readable if and only if the old file has no
password of Postgres and, of each service whose tokens in it are one, all of them or none that is
not the fresh one. -/
theorem keepsReadable_iff (g : Generation) (old : Option (List Char)) : g.KeepsReadable old ↔
    (readEnvFile old).get "POSTGRES_PASSWORD" = none ∧
      ∀ service, (readEnvFile old).Agree service → g.TokensTogether (readEnvFile old) service := by
  constructor
  · intro h
    refine ⟨Option.eq_none_iff_forall_ne_some.2 fun pw hpw => ?_, fun service hagree => ?_⟩
    · obtain ⟨password, hurl⟩ := h.databaseUrl
      exact get_regenerated_url hpw password hurl
    · exact (agree_regenerated_iff hagree).1 (h.tokens service hagree)
  · rintro ⟨hpw, htogether⟩
    exact {
      secrets := fun key hkey value hvalue => (get_regenerated_secret hkey value).2 (.inl hvalue)
      tokens := fun service hagree => (agree_regenerated_iff hagree).2 (htogether service hagree)
      databaseUrl := ⟨_, get_regenerated_url_of_none hpw⟩
      again := fun g' key hkey value hvalue => (get_regenerated_secret hkey value).2 (.inl hvalue) }

def plainGeneration : Generation := ⟨noSecrets, "", nofun, 8, [], ⟨[], nofun⟩⟩

/-- A file with a password of Postgres. -/
theorem not_keepsReadable_password :
    ¬ plainGeneration.KeepsReadable (some "POSTGRES_PASSWORD=old".toList) := by
  intro h
  have hpw : (readEnvFile (some "POSTGRES_PASSWORD=old".toList)).get "POSTGRES_PASSWORD" =
      some "old" := by decide +kernel
  obtain ⟨password, hurl⟩ := h.databaseUrl
  exact get_regenerated_url hpw password hurl

end Generation

end LlmPort.Cli
