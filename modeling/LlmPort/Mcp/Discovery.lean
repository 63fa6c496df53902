import LlmPort.Mcp.Registry
import LlmPort.Transition.Run

/-!
# Tool discovery

`discover_tools` of `services/discovery.py`: the descriptors of a server's report are upserted one
by one, a row of an unchanged schema is only touched, and the server's other rows are removed.
-/

namespace LlmPort.Mcp

open Text Transition

section
variable (schemaHash : JsonObject → String) (serverId : ServerId) (tenantId : String) (now : Nat)

/-- The row `upsert_tool` inserts, with the defaults of its columns. -/
def newTool (desc : MCPToolDescriptor) : MCPTool where
  serverId
  tenantId
  upstreamName := desc.upstreamName
  qualifiedName := desc.qualifiedName
  displayName := none
  description := desc.description
  rawSchema := desc.inputSchema
  openaiSchema := some (toOpenaiTool desc)
  annotations := if desc.annotations.isEmpty then none else some desc.annotations
  enabled := true
  version := 1
  schemaHash := schemaHash desc.inputSchema
  realm := "mcp_remote"
  source := "mcp"
  lastSeenAt := now

/-- What `update_tool` writes to the row of a descriptor. -/
def updatedTool (desc : MCPToolDescriptor) (existing : MCPTool) : MCPTool :=
  if existing.schemaHash ≠ schemaHash desc.inputSchema then
    { existing with
      description := desc.description
      rawSchema := desc.inputSchema
      openaiSchema := some (toOpenaiTool desc)
      annotations := if desc.annotations.isEmpty then none else some desc.annotations
      schemaHash := schemaHash desc.inputSchema
      version := existing.version + 1
      lastSeenAt := now }
  else { existing with lastSeenAt := now }

/-- One descriptor. -/
def recordTool (tools : List MCPTool) (desc : MCPToolDescriptor) : List MCPTool :=
  upsert MCPTool.key (newTool schemaHash serverId tenantId now desc)
    (updatedTool schemaHash now desc) tools

def discoverTools (descriptors : List MCPToolDescriptor) (tools : List MCPTool) : List MCPTool :=
  let tools := descriptors.foldl (recordTool schemaHash serverId tenantId now) tools
  let activeNames := descriptors.map (·.qualifiedName)
  if activeNames ≠ [] then removeStaleTools serverId activeNames tools
  else tools.filter (·.serverId ≠ serverId)

end

/-- A successful run: the server, what it reports, and the time. -/
structure DiscoveryRun where
  serverId : ServerId
  report : List RemoteTool
  now : Nat

section
variable (schemaHash : JsonObject → String) (servers : ServerId → MCPServer)

def DiscoveryRun.descriptors (r : DiscoveryRun) : List MCPToolDescriptor :=
  listTools (servers r.serverId).toolPrefix r.report

/-- The registry after a run, the server taken with its tenant and prefix. -/
def discover (tools : List MCPTool) (r : DiscoveryRun) : List MCPTool :=
  discoverTools schemaHash r.serverId (servers r.serverId).tenantId r.now (r.descriptors servers)
    tools

end

/-! ## What a run is for -/

/-- The row carries what the descriptor says. -/
structure MCPTool.Shows (row : MCPTool) (desc : MCPToolDescriptor) : Prop where
  name : row.qualifiedName = desc.qualifiedName
  description : row.description = desc.description
  schema : row.rawSchema = desc.inputSchema

/-- The row but for when it was last seen. -/
def MCPTool.unseen (row : MCPTool) : MCPTool := { row with lastSeenAt := 0 }

/-- The enabled rows of the server are the reported tools, those of other servers are as they were,
and another run with the same report touches rows at most. -/
structure Converged (schemaHash : JsonObject → String) (servers : ServerId → MCPServer)
    (tools : List MCPTool) (r : DiscoveryRun) : Prop where
  reported : ∀ desc ∈ r.descriptors servers, ∃ row ∈ discover schemaHash servers tools r,
    row.serverId = r.serverId ∧ row.enabled = true ∧ row.Shows desc
  enabled : ∀ row ∈ discover schemaHash servers tools r, row.serverId = r.serverId →
    row.enabled = true → ∃ desc ∈ r.descriptors servers, row.Shows desc
  others : ∀ row, row.serverId ≠ r.serverId →
    (row ∈ discover schemaHash servers tools r ↔ row ∈ tools)
  again : ∀ now, (discover schemaHash servers (discover schemaHash servers tools r)
    { r with now }).map (·.unseen) = (discover schemaHash servers tools r).map (·.unseen)

/-- What the upserts depend on: descriptors of one name agree, no reported name is that of another
server's row, and a row of the reported schema's hash already shows the tool. -/
structure Discoverable (schemaHash : JsonObject → String) (servers : ServerId → MCPServer)
    (tools : List MCPTool) (r : DiscoveryRun) : Prop where
  agree : ∀ desc ∈ r.descriptors servers, ∀ desc' ∈ r.descriptors servers,
    desc.qualifiedName = desc'.qualifiedName →
      desc.description = desc'.description ∧ desc.inputSchema = desc'.inputSchema
  own : ∀ desc ∈ r.descriptors servers, ∀ row ∈ tools,
    row.key = ((servers r.serverId).tenantId, desc.qualifiedName) → row.serverId = r.serverId
  hashed : ∀ desc ∈ r.descriptors servers, ∀ row ∈ tools,
    row.key = ((servers r.serverId).tenantId, desc.qualifiedName) →
      row.schemaHash = schemaHash desc.inputSchema →
        row.description = desc.description ∧ row.rawSchema = desc.inputSchema

/-! ## One descriptor -/

section
variable {schemaHash : JsonObject → String} {serverId : ServerId} {tenantId : String} {now : Nat}
  {tools : List MCPTool} {desc : MCPToolDescriptor} {descs : List MCPToolDescriptor}
  {row : MCPTool} {k : String × String}

/-- The row of a key. -/
def rowAt (tools : List MCPTool) (k : String × String) : Option MCPTool :=
  tools.find? (·.key = k)

theorem updatedTool_key : (updatedTool schemaHash now desc row).key = row.key := by
  unfold updatedTool
  split <;> rfl

theorem updatedTool_serverId : (updatedTool schemaHash now desc row).serverId = row.serverId := by
  unfold updatedTool
  split <;> rfl

theorem updatedTool_enabled : (updatedTool schemaHash now desc row).enabled = row.enabled := by
  unfold updatedTool
  split <;> rfl

theorem updatedTool_qualifiedName :
    (updatedTool schemaHash now desc row).qualifiedName = row.qualifiedName := by
  unfold updatedTool
  split <;> rfl

theorem updatedTool_of_hash (h : row.schemaHash = schemaHash desc.inputSchema) :
    updatedTool schemaHash now desc row = { row with lastSeenAt := now } :=
  if_neg (not_not_intro h)

theorem rowAt_recordTool : rowAt (recordTool schemaHash serverId tenantId now tools desc) k =
    if k = (tenantId, desc.qualifiedName) then
      some (((rowAt tools k).map (updatedTool schemaHash now desc)).getD
        (newTool schemaHash serverId tenantId now desc))
    else rowAt tools k :=
  find?_upsert (fun _ _ => updatedTool_key) k

theorem nodup_recordTool (h : (tools.map MCPTool.key).Nodup) :
    ((recordTool schemaHash serverId tenantId now tools desc).map MCPTool.key).Nodup :=
  nodup_upsert (fun _ _ => updatedTool_key) h

/-- The row shows the descriptor and carries the hash of its schema. -/
structure Records (schemaHash : JsonObject → String) (serverId : ServerId) (row : MCPTool)
    (desc : MCPToolDescriptor) : Prop extends row.Shows desc where
  own : row.serverId = serverId
  enabled : row.enabled = true
  hash : row.schemaHash = schemaHash desc.inputSchema

theorem newTool_records :
    Records schemaHash serverId (newTool schemaHash serverId tenantId now desc) desc :=
  ⟨⟨rfl, rfl, rfl⟩, rfl, rfl, rfl⟩

theorem updatedTool_records (hname : row.qualifiedName = desc.qualifiedName)
    (hown : row.serverId = serverId) (henabled : row.enabled = true)
    (hhash : row.schemaHash = schemaHash desc.inputSchema →
      row.description = desc.description ∧ row.rawSchema = desc.inputSchema) :
    Records schemaHash serverId (updatedTool schemaHash now desc row) desc := by
  by_cases h : row.schemaHash = schemaHash desc.inputSchema
  · rw [updatedTool_of_hash h]
    exact ⟨⟨hname, (hhash h).1, (hhash h).2⟩, hown, henabled, h⟩
  · unfold updatedTool
    rw [if_pos h]
    exact ⟨⟨hname, rfl, rfl⟩, hown, henabled, rfl⟩

theorem Records.touch (H : Records schemaHash serverId row desc) :
    Records schemaHash serverId { row with lastSeenAt := now } desc :=
  ⟨⟨H.name, H.description, H.schema⟩, H.own, H.enabled, H.hash⟩

/-! ## A report -/

/-- The registry after the upserts of a report. -/
def recordAll (schemaHash : JsonObject → String) (serverId : ServerId) (tenantId : String)
    (now : Nat) (tools : List MCPTool) (descs : List MCPToolDescriptor) : List MCPTool :=
  descs.foldl (recordTool schemaHash serverId tenantId now) tools

theorem discoverTools_eq : discoverTools schemaHash serverId tenantId now descs tools =
    removeStaleTools serverId (descs.map (·.qualifiedName))
      (recordAll schemaHash serverId tenantId now tools descs) := by
  unfold discoverTools
  dsimp only
  split
  next => rfl
  next h =>
    have hnil : descs.map (·.qualifiedName) = [] := not_not.1 h
    unfold removeStaleTools
    rw [hnil]
    exact List.filter_congr fun row _ => by simp

theorem mem_discoverTools : row ∈ discoverTools schemaHash serverId tenantId now descs tools ↔
    row ∈ recordAll schemaHash serverId tenantId now tools descs ∧
      (row.serverId = serverId → row.qualifiedName ∈ descs.map (·.qualifiedName)) := by
  rw [discoverTools_eq, removeStaleTools, List.mem_filter, decide_eq_true_eq, not_and, not_not]

/-- What holds of every row, of the new ones and of the updated ones, holds of every row after. -/
theorem forall_recordAll {P : MCPTool → Prop} (htools : ∀ r ∈ tools, P r)
    (hnew : ∀ d ∈ descs, P (newTool schemaHash serverId tenantId now d))
    (hupdated : ∀ d ∈ descs, ∀ r, r.key = (tenantId, d.qualifiedName) → P r →
      P (updatedTool schemaHash now d r)) :
    ∀ r ∈ recordAll schemaHash serverId tenantId now tools descs, P r := by
  induction descs generalizing tools with
  | nil => exact htools
  | cons d ds ih =>
    refine ih (fun r hr => ?_) (fun d' hd' => hnew d' (List.mem_cons_of_mem _ hd'))
      fun d' hd' => hupdated d' (List.mem_cons_of_mem _ hd')
    rcases mem_upsert.1 hr with ⟨hr, -⟩ | ⟨r', hr', hk, rfl⟩ | ⟨rfl, -⟩
    · exact htools r hr
    · exact hupdated d List.mem_cons_self r' hk (htools r' hr')
    · exact hnew d List.mem_cons_self

theorem nodup_recordAll (h : (tools.map MCPTool.key).Nodup) :
    ((recordAll schemaHash serverId tenantId now tools descs).map MCPTool.key).Nodup := by
  induction descs generalizing tools with
  | nil => exact h
  | cons d ds ih => exact ih (nodup_recordTool h)

theorem rowAt_recordAll_of_forall_ne (h : ∀ d ∈ descs, k ≠ (tenantId, d.qualifiedName)) :
    rowAt (recordAll schemaHash serverId tenantId now tools descs) k = rowAt tools k := by
  induction descs generalizing tools with
  | nil => rfl
  | cons d ds ih =>
    refine (ih fun d' hd' => h d' (List.mem_cons_of_mem _ hd')).trans ?_
    rw [rowAt_recordTool, if_neg (h d List.mem_cons_self)]

/-- What the updates of a key's descriptors keep, its row keeps. -/
theorem rowAt_recordAll_keeps {P : MCPTool → Prop} (hrow : rowAt tools k = some row) (hP : P row)
    (hkeep : ∀ d ∈ descs, k = (tenantId, d.qualifiedName) →
      ∀ r, P r → P (updatedTool schemaHash now d r)) :
    ∃ r, rowAt (recordAll schemaHash serverId tenantId now tools descs) k = some r ∧ P r := by
  induction descs generalizing tools row with
  | nil => exact ⟨row, hrow, hP⟩
  | cons d ds ih =>
    have hkeep' : ∀ d' ∈ ds, k = (tenantId, d'.qualifiedName) →
        ∀ r, P r → P (updatedTool schemaHash now d' r) :=
      fun d' hd' => hkeep d' (List.mem_cons_of_mem _ hd')
    by_cases hk : k = (tenantId, d.qualifiedName)
    · have hrow' : rowAt (recordTool schemaHash serverId tenantId now tools d) k =
          some (updatedTool schemaHash now d row) := by
        rw [rowAt_recordTool, if_pos hk, hrow]
        rfl
      exact ih hrow' (hkeep d List.mem_cons_self hk row hP) hkeep'
    · have hrow' : rowAt (recordTool schemaHash serverId tenantId now tools d) k = some row := by
        rw [rowAt_recordTool, if_neg hk, hrow]
      exact ih hrow' hP hkeep'

/-- Each descriptor is recorded, where they agree among themselves and with the rows they meet. -/
theorem recordAll_records
    (hagree : ∀ d ∈ descs, ∀ d' ∈ descs, d.qualifiedName = d'.qualifiedName →
      d.description = d'.description ∧ d.inputSchema = d'.inputSchema)
    (hmeet : ∀ d ∈ descs, ∀ r, rowAt tools (tenantId, d.qualifiedName) = some r →
      r.serverId = serverId ∧ r.enabled = true ∧
        (r.schemaHash = schemaHash d.inputSchema →
          r.description = d.description ∧ r.rawSchema = d.inputSchema)) :
    ∀ d ∈ descs, ∃ r, rowAt (recordAll schemaHash serverId tenantId now tools descs)
      (tenantId, d.qualifiedName) = some r ∧ Records schemaHash serverId r d := by
  induction descs generalizing tools with
  | nil => exact fun _ h => nomatch h
  | cons x xs ih =>
    obtain ⟨r, hr, hrec⟩ : ∃ r, rowAt (recordTool schemaHash serverId tenantId now tools x)
        (tenantId, x.qualifiedName) = some r ∧ Records schemaHash serverId r x := by
      refine ⟨_, by rw [rowAt_recordTool, if_pos rfl], ?_⟩
      cases hrow : rowAt tools (tenantId, x.qualifiedName) with
      | none => exact newTool_records
      | some r =>
        obtain ⟨hown, henabled, hhash⟩ := hmeet x List.mem_cons_self r hrow
        have hkey : r.key = (tenantId, x.qualifiedName) := by simpa using List.find?_some hrow
        exact updatedTool_records (Prod.mk.inj hkey).2 hown henabled hhash
    intro d hd
    rcases List.mem_cons.1 hd with rfl | hd
    · change ∃ r, rowAt (recordAll schemaHash serverId tenantId now
        (recordTool schemaHash serverId tenantId now tools d) xs) _ = _ ∧ _
      refine rowAt_recordAll_keeps hr hrec fun d' hd' hk r' hr' => ?_
      obtain ⟨-, hschema⟩ := hagree d List.mem_cons_self d' (List.mem_cons_of_mem _ hd')
        (Prod.mk.inj hk).2
      rw [updatedTool_of_hash (hr'.hash.trans (by rw [hschema]))]
      exact hr'.touch
    · refine ih (fun d hd d' hd' => hagree d (List.mem_cons_of_mem _ hd) d'
        (List.mem_cons_of_mem _ hd')) (fun d' hd' r' hr' => ?_) d hd
      by_cases hk : (tenantId, d'.qualifiedName) = (tenantId, x.qualifiedName)
      · rw [hk, hr] at hr'
        obtain rfl := Option.some.inj hr'
        obtain ⟨hdesc, hschema⟩ := hagree x List.mem_cons_self d' (List.mem_cons_of_mem _ hd')
          (Prod.mk.inj hk).2.symm
        exact ⟨hrec.own, hrec.enabled, fun _ =>
          ⟨hrec.description.trans hdesc, hrec.schema.trans hschema⟩⟩
      · rw [rowAt_recordTool, if_neg hk] at hr'
        exact hmeet d' (List.mem_cons_of_mem _ hd') r' hr'

/-- A report that is on record already changes nothing but the times. -/
theorem recordAll_unseen
    (h : ∀ d ∈ descs, ∃ r ∈ tools, r.key = (tenantId, d.qualifiedName))
    (hhash : ∀ d ∈ descs, ∀ r ∈ tools, r.key = (tenantId, d.qualifiedName) →
      r.schemaHash = schemaHash d.inputSchema) :
    (recordAll schemaHash serverId tenantId now tools descs).map (·.unseen) =
      tools.map (·.unseen) := by
  induction descs generalizing tools with
  | nil => rfl
  | cons d ds ih =>
    obtain ⟨r, hr, hk⟩ := h d List.mem_cons_self
    have hany : tools.any (fun row => row.key =
        (newTool schemaHash serverId tenantId now d).key) :=
      List.any_eq_true.2 ⟨r, hr, decide_eq_true hk⟩
    have htouch : recordTool schemaHash serverId tenantId now tools d =
        tools.map fun row => if row.key = (tenantId, d.qualifiedName) then
          { row with lastSeenAt := now } else row := by
      unfold recordTool upsert
      rw [if_pos hany]
      refine List.map_congr_left fun row hrow => ?_
      split
      next hk => exact (updatedTool_of_hash (hhash d List.mem_cons_self row hrow hk)).trans
                  (if_pos hk).symm
      next hk => exact (if_neg hk).symm
    have hunseen : (recordTool schemaHash serverId tenantId now tools d).map (·.unseen) =
        tools.map (·.unseen) := by
      rw [htouch, List.map_map]
      refine List.map_congr_left fun row _ => ?_
      rw [Function.comp_apply]
      split <;> rfl
    have hmem : ∀ row, row ∈ recordTool schemaHash serverId tenantId now tools d →
        ∃ r ∈ tools, r.key = row.key ∧ r.schemaHash = row.schemaHash := by
      intro row hrow
      rw [htouch] at hrow
      obtain ⟨r, hr, rfl⟩ := List.mem_map.1 hrow
      refine ⟨r, hr, ?_⟩
      split <;> exact ⟨rfl, rfl⟩
    rw [← hunseen]
    refine ih (fun d' hd' => ?_) fun d' hd' row hrow hk => ?_
    · obtain ⟨r', hr', hk'⟩ := h d' (List.mem_cons_of_mem _ hd')
      rw [htouch]
      refine ⟨_, List.mem_map_of_mem hr', ?_⟩
      split <;> exact hk'
    · obtain ⟨r', hr', hkey, hh⟩ := hmem row hrow
      rw [← hh]
      exact hhash d' (List.mem_cons_of_mem _ hd') r' hr' (hkey.trans hk)

end

/-! ## Histories -/

/-- What discovery keeps of the registry: the unique key, enabled rows, and each row in the tenant
of its server. -/
structure WellKept (servers : ServerId → MCPServer) (tools : List MCPTool) : Prop where
  keys : (tools.map MCPTool.key).Nodup
  enabled : ∀ row ∈ tools, row.enabled = true
  tenant : ∀ row ∈ tools, row.tenantId = (servers row.serverId).tenantId

section
variable {schemaHash : JsonObject → String} {servers : ServerId → MCPServer}
  {tools : List MCPTool} {r : DiscoveryRun}

theorem WellKept.nil : WellKept servers [] where
  keys := List.nodup_nil
  enabled _ h := nomatch h
  tenant _ h := nomatch h

theorem mem_discover {row : MCPTool} : row ∈ discover schemaHash servers tools r ↔
    row ∈ recordAll schemaHash r.serverId (servers r.serverId).tenantId r.now tools
      (r.descriptors servers) ∧
      (row.serverId = r.serverId →
        row.qualifiedName ∈ (r.descriptors servers).map (·.qualifiedName)) :=
  mem_discoverTools

theorem nodup_discover (h : (tools.map MCPTool.key).Nodup) :
    ((discover schemaHash servers tools r).map MCPTool.key).Nodup := by
  unfold discover
  rw [discoverTools_eq]
  exact (nodup_recordAll h).sublist (List.filter_sublist.map _)

theorem WellKept.discover (H : WellKept servers tools) :
    WellKept servers (discover schemaHash servers tools r) where
  keys := nodup_discover H.keys
  enabled row hrow := by
    refine forall_recordAll H.enabled (fun _ _ => rfl) (fun d _ r' _ hr' => ?_) row
      (mem_discover.1 hrow).1
    rw [updatedTool_enabled]
    exact hr'
  tenant row hrow := by
    refine forall_recordAll H.tenant (fun _ _ => rfl) (fun d _ r' _ hr' => ?_) row
      (mem_discover.1 hrow).1
    rw [updatedTool_serverId, ← hr']
    exact congrArg Prod.fst updatedTool_key

theorem rowAt_eq_some (h : (tools.map MCPTool.key).Nodup) {row : MCPTool} {k : String × String} :
    rowAt tools k = some row ↔ row ∈ tools ∧ row.key = k := by
  constructor
  · intro hrow
    exact ⟨List.mem_of_find?_eq_some hrow, by simpa using List.find?_some hrow⟩
  · rintro ⟨hrow, rfl⟩
    exact (mem_iff_find? h).1 hrow

/-- The upserts of a run record its report. -/
theorem Discoverable.records (H : WellKept servers tools)
    (C : Discoverable schemaHash servers tools r) :
    ∀ d ∈ r.descriptors servers, ∃ row,
      rowAt (recordAll schemaHash r.serverId (servers r.serverId).tenantId r.now tools
        (r.descriptors servers)) ((servers r.serverId).tenantId, d.qualifiedName) = some row ∧
      Records schemaHash r.serverId row d := by
  refine recordAll_records C.agree fun d hd row hrow => ?_
  obtain ⟨hmem, hkey⟩ := (rowAt_eq_some H.keys).1 hrow
  exact ⟨C.own d hd row hmem hkey, H.enabled row hmem, C.hashed d hd row hmem hkey⟩

/-- A record of a descriptor is the only row of its key. -/
theorem Discoverable.records_of_key (H : WellKept servers tools)
    (C : Discoverable schemaHash servers tools r) {row : MCPTool} {d : MCPToolDescriptor}
    (hrow : row ∈ recordAll schemaHash r.serverId (servers r.serverId).tenantId r.now tools
      (r.descriptors servers)) (hd : d ∈ r.descriptors servers)
    (hkey : row.key = ((servers r.serverId).tenantId, d.qualifiedName)) :
    Records schemaHash r.serverId row d := by
  obtain ⟨row', hrow', hrec⟩ := C.records H d hd
  rw [(rowAt_eq_some (nodup_recordAll H.keys)).2 ⟨hrow, hkey⟩, Option.some.injEq] at hrow'
  exact hrow' ▸ hrec

theorem Discoverable.reported (H : WellKept servers tools)
    (C : Discoverable schemaHash servers tools r) {d : MCPToolDescriptor}
    (hd : d ∈ r.descriptors servers) : ∃ row ∈ discover schemaHash servers tools r,
      Records schemaHash r.serverId row d := by
  obtain ⟨row, hrow, hrec⟩ := C.records H d hd
  obtain ⟨hmem, -⟩ := (rowAt_eq_some (nodup_recordAll H.keys)).1 hrow
  refine ⟨row, mem_discover.2 ⟨hmem, fun _ => ?_⟩, hrec⟩
  exact List.mem_map.2 ⟨d, hd, hrec.name.symm⟩

/-- The rows of the server after a run. -/
theorem Discoverable.records_of_mem (H : WellKept servers tools)
    (C : Discoverable schemaHash servers tools r) {row : MCPTool}
    (hrow : row ∈ discover schemaHash servers tools r) (hown : row.serverId = r.serverId) :
    ∃ d ∈ r.descriptors servers, Records schemaHash r.serverId row d := by
  obtain ⟨hmem, hactive⟩ := mem_discover.1 hrow
  obtain ⟨d, hd, hname⟩ := List.mem_map.1 (hactive hown)
  have htenant : row.tenantId = (servers r.serverId).tenantId := hown ▸ H.discover.tenant row hrow
  exact ⟨d, hd, C.records_of_key H hmem hd (Prod.ext htenant hname.symm)⟩

theorem Discoverable.others (H : WellKept servers tools)
    (C : Discoverable schemaHash servers tools r) {row : MCPTool}
    (hother : row.serverId ≠ r.serverId) :
    row ∈ discover schemaHash servers tools r ↔ row ∈ tools := by
  rw [mem_discover, and_iff_left fun hown => absurd hown hother]
  by_cases hk : ∃ d ∈ r.descriptors servers,
      row.key = ((servers r.serverId).tenantId, d.qualifiedName)
  · obtain ⟨d, hd, hkey⟩ := hk
    exact iff_of_false (fun hmem => hother (C.records_of_key H hmem hd hkey).own)
      fun hmem => hother (C.own d hd row hmem hkey)
  · rw [mem_iff_find? H.keys, mem_iff_find? (nodup_recordAll H.keys)]
    change rowAt _ _ = _ ↔ rowAt _ _ = _
    rw [rowAt_recordAll_of_forall_ne fun d hd hkey => hk ⟨d, hd, hkey⟩]

theorem Discoverable.again (H : WellKept servers tools)
    (C : Discoverable schemaHash servers tools r) (now : Nat) :
    (discover schemaHash servers (discover schemaHash servers tools r) { r with now }).map
        (·.unseen) = (discover schemaHash servers tools r).map (·.unseen) := by
  have hactive : ∀ row ∈ recordAll schemaHash r.serverId (servers r.serverId).tenantId now
      (discover schemaHash servers tools r) (r.descriptors servers),
      row.serverId = r.serverId →
        row.qualifiedName ∈ (r.descriptors servers).map (·.qualifiedName) := by
    refine forall_recordAll (fun row hrow => (mem_discover.1 hrow).2)
      (fun d hd _ => List.mem_map_of_mem hd) fun d _ row _ hrow hid => ?_
    rw [updatedTool_serverId] at hid
    rw [updatedTool_qualifiedName]
    exact hrow hid
  have hkept : discover schemaHash servers (discover schemaHash servers tools r)
      { r with now } = recordAll schemaHash r.serverId (servers r.serverId).tenantId now
        (discover schemaHash servers tools r) (r.descriptors servers) := by
    refine discoverTools_eq.trans (List.filter_eq_self.2 fun row hrow => ?_)
    rw [decide_eq_true_eq, not_and, not_not]
    exact hactive row hrow
  rw [hkept]
  refine recordAll_unseen (fun d hd => ?_) fun d hd row hrow hkey =>
    (C.records_of_key H (mem_discover.1 hrow).1 hd hkey).hash
  obtain ⟨row, hrow, hrec⟩ := C.reported H hd
  exact ⟨row, hrow, Prod.ext (hrec.own ▸ H.discover.tenant row hrow) hrec.name⟩

/-- A run with what it depends on converges. -/
theorem Discoverable.converged (H : WellKept servers tools)
    (C : Discoverable schemaHash servers tools r) : Converged schemaHash servers tools r where
  reported d hd := by
    obtain ⟨row, hrow, hrec⟩ := C.reported H hd
    exact ⟨row, hrow, hrec.own, hrec.enabled, hrec.toShows⟩
  enabled row hrow hown _ := by
    obtain ⟨d, hd, hrec⟩ := C.records_of_mem H hrow hown
    exact ⟨d, hd, hrec.toShows⟩
  others _ := C.others H
  again := C.again H

/-- The one row that a converged run leaves under a reported name. -/
theorem Converged.rowAt (H : WellKept servers tools) (C : Converged schemaHash servers tools r)
    {d : MCPToolDescriptor} (hd : d ∈ r.descriptors servers) {row : MCPTool}
    (hrow : Mcp.rowAt (recordAll schemaHash r.serverId (servers r.serverId).tenantId r.now tools
      (r.descriptors servers)) ((servers r.serverId).tenantId, d.qualifiedName) = some row) :
    row.serverId = r.serverId ∧ row.Shows d := by
  obtain ⟨row', hmem, hown, -, hshows⟩ := C.reported d hd
  have hkey : row'.key = ((servers r.serverId).tenantId, d.qualifiedName) :=
    Prod.ext (hown ▸ H.discover.tenant row' hmem) hshows.name
  rw [(rowAt_eq_some (nodup_recordAll H.keys)).2 ⟨(mem_discover.1 hmem).1, hkey⟩,
    Option.some.injEq] at hrow
  exact ⟨hrow ▸ hown, hrow ▸ hshows⟩

/-- A run that converges had what it depends on. -/
theorem Converged.discoverable (H : WellKept servers tools)
    (C : Converged schemaHash servers tools r) : Discoverable schemaHash servers tools r := by
  have hagree : ∀ d ∈ r.descriptors servers, ∀ d' ∈ r.descriptors servers,
      d.qualifiedName = d'.qualifiedName →
        d.description = d'.description ∧ d.inputSchema = d'.inputSchema := by
    intro d hd d' hd' hname
    obtain ⟨row, hmem, hown, -, hshows⟩ := C.reported d hd
    have hkey : row.key = ((servers r.serverId).tenantId, d'.qualifiedName) :=
      Prod.ext (hown ▸ H.discover.tenant row hmem) (hshows.name.trans hname)
    have hrow := (rowAt_eq_some (nodup_recordAll H.keys)).2 ⟨(mem_discover.1 hmem).1, hkey⟩
    obtain ⟨-, hshows'⟩ := C.rowAt H hd' hrow
    exact ⟨hshows.description.symm.trans hshows'.description,
      hshows.schema.symm.trans hshows'.schema⟩
  refine ⟨hagree, fun d hd row hrow hkey => ?_, fun d hd row hrow hkey hhash => ?_⟩
  · obtain ⟨row', hrow', hid⟩ := rowAt_recordAll_keeps (P := fun x => x.serverId = row.serverId)
      ((rowAt_eq_some H.keys).2 ⟨hrow, hkey⟩) rfl
      fun d' _ _ x hx => updatedTool_serverId.trans hx
    exact hid.symm.trans (C.rowAt H hd hrow').1
  · let Same (x : MCPTool) : Prop := x.schemaHash = row.schemaHash ∧
      x.description = row.description ∧ x.rawSchema = row.rawSchema
    have hkeep : ∀ d' ∈ r.descriptors servers,
        ((servers r.serverId).tenantId, d.qualifiedName) =
          ((servers r.serverId).tenantId, d'.qualifiedName) →
        ∀ x, Same x → Same (updatedTool schemaHash r.now d' x) := by
      intro d' hd' hk x hx
      obtain ⟨-, hschema⟩ := hagree d hd d' hd' (Prod.mk.inj hk).2
      rw [updatedTool_of_hash (hx.1.trans (hhash.trans (by rw [hschema])))]
      exact hx
    obtain ⟨row', hrow', -, hdesc, hschema⟩ := rowAt_recordAll_keeps
      ((rowAt_eq_some H.keys).2 ⟨hrow, hkey⟩) (show Same row from ⟨rfl, rfl, rfl⟩) hkeep
    obtain ⟨-, hshows⟩ := C.rowAt H hd hrow'
    exact ⟨hdesc.symm.trans hshows.description, hschema.symm.trans hshows.schema⟩

/-- After every history of discovery runs, of any servers with any reports, a run converges exactly
where the descriptors of one name agree, no reported name is that of another server's row in the
tenant, and no row of the reported schema's hash shows another description or schema. -/
theorem discovery_converges_iff (schemaHash : JsonObject → String)
    (servers : ServerId → MCPServer) (history : List DiscoveryRun) (r : DiscoveryRun) :
    Converged schemaHash servers (run (discover schemaHash servers) [] history) r ↔
      Discoverable schemaHash servers (run (discover schemaHash servers) [] history) r := by
  have H : WellKept servers (run (discover schemaHash servers) [] history) :=
    run_invariant (fun _ _ H => H.discover) .nil
  exact ⟨fun C => C.discoverable H, fun C => C.converged H⟩

/-- A report of one tool without parameters. -/
def reporting (description : String) (now : Nat) : DiscoveryRun where
  serverId := "wiki"
  report := [⟨"find", some description, some [], []⟩]
  now := now

theorem description_change_is_lost : ¬ ∀ (schemaHash : JsonObject → String)
    (servers : ServerId → MCPServer) (history : List DiscoveryRun) (r : DiscoveryRun),
    Converged schemaHash servers (run (discover schemaHash servers) [] history) r := by
  intro h
  obtain ⟨row, hrow, -, -, hshows⟩ := (h (fun schema => String.ofList (Json.object schema).dumps)
    (fun _ => ⟨"default", "wiki", "wiki", "allow", true⟩) [reporting "old" 1]
    (reporting "new" 2)).reported _ List.mem_cons_self
  have hold : ∀ row ∈ discover (fun schema => String.ofList (Json.object schema).dumps)
      (fun _ => ⟨"default", "wiki", "wiki", "allow", true⟩)
      (run (discover (fun schema => String.ofList (Json.object schema).dumps)
        (fun _ => ⟨"default", "wiki", "wiki", "allow", true⟩)) [] [reporting "old" 1])
      (reporting "new" 2), row.description = "old" := by decide
  exact absurd ((hold row hrow).symm.trans hshows.description) (by decide)

end

end LlmPort.Mcp
