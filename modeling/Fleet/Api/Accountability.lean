/- Every commit of the service answers to a request whose signature verifies: the gate, the
   handlers and the operations together, under any interleaving. -/
import Fleet.Api.Service

namespace Fleet.Api
open Fleet.Lib

/-! ## What every commit keeps -/

theorem Keeps.of_catalog {s s' : Store} (tasks : s'.tasks = s.tasks) (events : s'.events = s.events)
    (owners : ∀ id w, s.workflows.find? id = some w →
      ∃ w', s'.workflows.find? id = some w' ∧ w'.ownerAgentId = w.ownerAgentId)
    (agents : ∀ id a, s.agents.find? id = some a → ∃ a', s'.agents.find? id = some a' ∧
      a'.publicKey = a.publicKey ∧ (a.status ≠ .suspended → a'.status ≠ .suspended)) : Keeps s s' where
  grows := {
    rows := fun _ t found => ⟨t, by rw [tasks]; exact found, .refl t⟩
    log := events ▸ List.prefix_refl _ }
  owners := owners
  agents := agents

theorem Keeps.flushWorkflow {w : WorkflowWork} {s s' : Store} (h : s.flushWorkflow w = .ok s') :
    Keeps s s' := by
  have agents : ∀ {workflows : Table String Workflow Workflow.id} id a, s.agents.find? id = some a →
      ∃ a', (Store.agents { s with workflows }).find? id = some a' ∧ a'.publicKey = a.publicKey ∧
        (a.status ≠ .suspended → a'.status ≠ .suspended) :=
    fun id a stored => ⟨a, stored, rfl, fun free => free⟩
  unfold Store.flushWorkflow at h
  cases w with
  | insert row =>
      dsimp only at h
      split_ifs at h
      split at h
      · rename_i workflows inserted
        cases h
        refine .of_catalog rfl rfl (fun id w stored => ⟨w, ?_, rfl⟩) agents
        rw [Table.find?_insert? inserted, if_neg, stored]
        rintro rfl
        rw [Table.insert?_isSome.mp ⟨workflows, inserted⟩] at stored
        cases stored
      · cases h
  | update loaded current dbNow =>
      dsimp only at h
      split at h
      · cases h
      · split at h
        · cases h
        · cases h
          refine .of_catalog rfl rfl (fun id w stored => ?_) agents
          rw [Table.find?_modify, stored]
          split
          · exact ⟨_, rfl, rfl⟩
          · exact ⟨w, rfl, rfl⟩

/-- A heartbeat suspends nobody: it writes `ACTIVE`, or no status. -/
theorem Agent.writeBack_active (loaded stored : Agent) (now : Time) (free : stored.status ≠ .suspended) :
    (Agent.writeBack loaded (loaded.heartbeat now) stored).status ≠ .suspended := by
  by_cases wakes : loaded.status = .registered ∨ loaded.status = .unreachable
  · simp only [Agent.writeBack, Agent.heartbeat, Task.column, if_pos wakes]
    split
    · exact free
    · simp
  · simp only [Agent.writeBack, Agent.heartbeat, Task.column, if_neg wakes, if_true]
    exact free

theorem Keeps.flushAgent {w : AgentWork} {s s' : Store} (h : s.flushAgent w = .ok s') : Keeps s s' := by
  have owners : ∀ {agents : Table String Agent Agent.id} id w, s.workflows.find? id = some w →
      ∃ w', (Store.workflows { s with agents }).find? id = some w' ∧ w'.ownerAgentId = w.ownerAgentId :=
    fun id w stored => ⟨w, stored, rfl⟩
  unfold Store.flushAgent at h
  cases w with
  | insert row =>
      dsimp only at h
      split_ifs at h
      split at h
      · rename_i agents inserted
        cases h
        refine .of_catalog rfl rfl owners fun id a stored => ⟨a, ?_, rfl, fun free => free⟩
        rw [Table.find?_insert? inserted, if_neg, stored]
        rintro rfl
        rw [Table.insert?_isSome.mp ⟨agents, inserted⟩] at stored
        cases stored
      · cases h
  | heartbeat loaded now =>
      dsimp only at h
      split at h
      · cases h
      · cases h
        refine .of_catalog rfl rfl owners fun id a stored => ?_
        rw [find?_commitHeartbeat, stored]
        split
        · exact ⟨_, rfl, rfl, Agent.writeBack_active loaded a now⟩
        · exact ⟨a, rfl, rfl, fun free => free⟩
  | mark ids =>
      cases h
      refine .of_catalog rfl rfl owners fun id a stored => ?_
      rw [find?_markUnreachable, stored]
      split
      · exact ⟨_, rfl, rfl, fun _ => by simp⟩
      · exact ⟨a, rfl, rfl, fun free => free⟩

theorem Keeps.flushService (w : ServiceWork) (s s' : Store) (h : s.flushService w = .ok s') :
    Keeps s s' := by
  cases w with
  | tasks w => exact .flush w s s' (mapError_ok h)
  | workflows w => exact .flushWorkflow (mapError_ok h)
  | agents w => exact .flushAgent (mapError_ok h)

/-! ## Signed requests -/

/-- The store knows the agent, it is not suspended, and the signature that the request
presents verifies under the key the store holds for it. -/
def SignedIn (C : Crypto) (now : Time) (req : Request) (s : Store) (agentId : String) : Prop :=
  ∃ p a, Presents now req p ∧ Verified C req p a s s ∧ a.agentId = agentId

section gate
variable {C : Crypto} {now : Time} {req : Request} {s s' : Store}

theorem storedKey_agent {agentId : String} {key : C.PublicKey} (h : storedKey C s agentId = .ok (some key)) :
    ∃ a, s.agents.find? agentId = some a := by
  unfold storedKey at h
  split at h
  · cases h
  · rename_i a stored
    exact ⟨a, stored⟩

theorem storedKey_keeps {agentId : String} {key : C.PublicKey}
    (h : storedKey C s agentId = .ok (some key)) (keeps : Keeps s s') :
    storedKey C s' agentId = .ok (some key) := by
  obtain ⟨a, stored⟩ := storedKey_agent h
  obtain ⟨a', stored', same, -⟩ := keeps.agents _ _ stored
  rw [← h]
  simp only [storedKey, stored, stored', same]

theorem suspended_keeps {agentId : String} {a : Agent} (stored : s.agents.find? agentId = some a)
    (free : suspended s agentId = false) (keeps : Keeps s s') : suspended s' agentId = false := by
  obtain ⟨a', stored', -, active⟩ := keeps.agents _ _ stored
  rw [suspended, stored, Option.any_some, decide_eq_false_iff_not] at free
  rw [suspended, stored', Option.any_some, decide_eq_false_iff_not]
  exact active free

theorem Verified.later {p : Presented} {a : AuthenticatedAgent C} {atKey atStatus : Store}
    (h : Verified C req p a atKey atStatus) (between : Keeps atKey atStatus) (after : Keeps atStatus s) :
    Verified C req p a s s := by
  obtain ⟨row, stored⟩ := storedKey_agent h.registered
  obtain ⟨row', stored', -⟩ := between.agents _ _ stored
  exact ⟨h.agent, storedKey_keeps h.registered (.trans _ _ _ between after),
    suspended_keeps stored' h.active after, h.signed⟩

theorem SignedIn.mono {agentId : String} (h : SignedIn C now req s agentId) (keeps : Keeps s s') :
    SignedIn C now req s' agentId := by
  obtain ⟨p, a, presents, verified, named⟩ := h
  exact ⟨p, a, presents, verified.later (.refl s) keeps, named⟩

/-- The gate answers with an agent only if the store it leaves knows it by the signature. -/
theorem wp_gate : Gate.wp Keeps (requireAuth C now req)
    (fun r s' => ∀ a, r = .ok (some a) → SignedIn C now req s' a.agentId) s := by
  refine (wp_requireAuth _ (fun _ _ _ impossible => (by cases impossible))).mpr ⟨?_, ?_⟩
  · intro _ a impossible
    cases impossible
  · intro _ p presents a atKey atStatus _ later verified b same
    cases same
    exact ⟨p, a, presents, verified.later later (.refl _), rfl⟩

end gate

/-! ## Justified commits -/

/-- What the operation may commit at a store while others run: whatever its program
promises of each of its commits. -/
def Op.Commits (env : Env) (op : Op) (s : Store) (w : Work) : Prop :=
  ∀ R, (∀ s₁, (op.program env).wp Store.flush Keeps R (fun _ _ => True) s₁) → R s w

theorem Op.wp_commits (env : Env) (op : Op) (s : Store) :
    (op.program env).wp Store.flush Keeps (op.Commits env) (fun _ _ => True) s :=
  Prog.wp_all fun _ promised => promised s

/-- It touches, of the stored tasks, only those that its agent has authority over. -/
theorem Op.Commits.warranted {env : Env} {op : Op} {s : Store} {w : Work} (h : op.Commits env s w) :
    Warranted op s w := h _ (op.warranted env)

/-- What an arrival may commit at a store. Only a registration needs no signature, and it
adds a row; everything else is signed by the agent in whose name it is done. -/
inductive Justified (srv : Server) : Incoming → Store → ServiceWork → Prop
  | operated {req : Request} {d : Draws} {s : Store} {w : Work} (op : Op) (endpoint : Endpoint)
      (params : List (String × String)) (input : endpoint.Input)
      (routed : resolve req.method req.path = some (endpoint, params))
      (sent : srv.validate endpoint req = some input)
      (asked : endpoint.operation d params op.agent input = some op)
      (signed : SignedIn srv.crypto d.clk.now req s op.agent) (commits : op.Commits srv.env s w)
      (warranted : Warranted op s w) : Justified srv (.request req d) s (.tasks w)
  | registered {req : Request} {d : Draws} {s : Store} (body : RegisterAgentRequest)
      (params : List (String × String))
      (routed : resolve req.method req.path = some (.registerAgent, params))
      (sent : srv.validate .registerAgent req = some body) :
      Justified srv (.request req d) s (.agents (.insert (body.row d.clk.now)))
  | heard {req : Request} {d : Draws} {s : Store} (loaded : Agent) (params : List (String × String))
      (routed : resolve req.method req.path = some (.heartbeat, params))
      (own : params.lookup "agent_id" = some loaded.id)
      (signed : SignedIn srv.crypto d.clk.now req s loaded.id) :
      Justified srv (.request req d) s (.agents (.heartbeat loaded d.clk.now))
  | catalogued {req : Request} {d : Draws} {s : Store} (body : WorkflowCreateRequest) (owner : String)
      (params : List (String × String))
      (routed : resolve req.method req.path = some (.createWorkflow, params))
      (sent : srv.validate .createWorkflow req = some body)
      (signed : SignedIn srv.crypto d.clk.now req s owner) :
      Justified srv (.request req d) s (.workflows (.insert ((body.request owner).row d.clk)))
  | edited {req : Request} {d : Draws} {s : Store} (body : WorkflowUpdateRequest)
      (loaded current stored : Workflow) (params : List (String × String))
      (routed : resolve req.method req.path = some (.updateWorkflow, params))
      (sent : srv.validate .updateWorkflow req = some body)
      (named : params.lookup "workflow_id" = some loaded.id)
      (assigned : (body.request loaded.id stored.ownerAgentId).assign d.clk loaded = .ok current)
      (found : s.workflows.find? loaded.id = some stored)
      (signed : SignedIn srv.crypto d.clk.now req s stored.ownerAgentId) :
      Justified srv (.request req d) s (.workflows (.update loaded current d.clk.dbNow))
  | swept {now : Time} {s : Store} (ids : List String) : Justified srv (.sweep now) s (.agents (.mark ids))

/-! ### The parts of a handler -/

section parts
variable {srv : Server} {arrival : Incoming} {α : Type} {s : Store}

/-- A part of the service that promises, of each of its commits, a justification at any
store that comes after this one. -/
theorem wp_ofDb {R : Store → Work → Prop} {p : Db α}
    (h : p.wp Store.flush Keeps R (fun _ _ => True) s)
    (justifies : ∀ s' w, R s' w → Keeps s s' → Justified srv arrival s' (.tasks w)) :
    (Service.ofDb p).wp Store.flushService Keeps (Justified srv arrival) (fun _ _ => True) s := by
  refine Prog.wp_embed (fun _ _ => rfl) ?_ (fun _ _ _ => trivial)
    (Prog.wp_since Keeps.trans Keeps.flush (.refl s) h)
  exact fun s' w promised => justifies s' w promised.1 promised.2

theorem wp_ofCatalog {R : Store → WorkflowWork → Prop} {p : Catalog α}
    (h : p.wp (fun w s => s.flushWorkflow w) Keeps R (fun _ _ => True) s)
    (justifies : ∀ s' w, R s' w → Keeps s s' → Justified srv arrival s' (.workflows w)) :
    (Service.ofCatalog p).wp Store.flushService Keeps (Justified srv arrival) (fun _ _ => True) s := by
  refine Prog.wp_embed (fun _ _ => rfl) ?_ (fun _ _ _ => trivial)
    (Prog.wp_since Keeps.trans (fun _ _ _ => Keeps.flushWorkflow) (.refl s) h)
  exact fun s' w promised => justifies s' w promised.1 promised.2

theorem wp_ofAgents {R : Store → AgentWork → Prop} {p : Agents α}
    (h : p.wp (fun w s => s.flushAgent w) Keeps R (fun _ _ => True) s)
    (justifies : ∀ s' w, R s' w → Keeps s s' → Justified srv arrival s' (.agents w)) :
    (Service.ofAgents p).wp Store.flushService Keeps (Justified srv arrival) (fun _ _ => True) s := by
  refine Prog.wp_embed (fun _ _ => rfl) ?_ (fun _ _ _ => trivial)
    (Prog.wp_since Keeps.trans (fun _ _ _ => Keeps.flushAgent) (.refl s) h)
  exact fun s' w promised => justifies s' w promised.1 promised.2

theorem wp_reads {p : Service α} (h : p.Reads) :
    p.wp Store.flushService Keeps (Justified srv arrival) (fun _ _ => True) s :=
  h.wp (fun _ _ => trivial) s

theorem wp_withParam {params : List (String × String)} {name : String} {k : String → Service α}
    (h : ∀ v, params.lookup name = some v →
      (k v).wp Store.flushService Keeps (Justified srv arrival) (fun _ _ => True) s) :
    (Service.withParam params name k).wp Store.flushService Keeps (Justified srv arrival)
      (fun _ _ => True) s := by
  unfold Service.withParam
  split
  · rename_i v found
    exact h v found
  · trivial

theorem wp_withAgent {agent : Option String} {k : String → Service α}
    (h : ∀ a, agent = some a →
      (k a).wp Store.flushService Keeps (Justified srv arrival) (fun _ _ => True) s) :
    (Service.withAgent agent k).wp Store.flushService Keeps (Justified srv arrival) (fun _ _ => True) s := by
  unfold Service.withAgent
  split
  · exact h _ rfl
  · trivial

end parts

/-! ### Handlers that read -/

section reads
variable {α : Type}

@[simp] theorem Db.reads_ofExcept (r : Except Failure α) : (Db.ofExcept r).Reads := trivial

@[simp] theorem Db.reads_query (q : Store → α) : (Db.query q).Reads := fun _ => trivial

theorem Db.reads_under (conditions : List Sql.Expr) {p : Db α} (reads : p.Reads) :
    (Db.under conditions p).Reads := by
  unfold Db.under
  split
  · exact reads
  · trivial

@[simp] theorem Db.reads_fetch (q : Store → Option α) (e : FleetAPIError) : (Db.fetch q e).Reads := by
  intro s
  dsimp only
  split <;> trivial

theorem reads_ancestorIds (fuel : Nat) (id? : Option String) : (ancestorIds fuel id?).Reads := by
  induction fuel generalizing id? with
  | zero => trivial
  | succ n ih =>
      cases id? with
      | none => trivial
      | some parentId =>
          refine (Db.reads_query _).bind fun found => ?_
          cases found with
          | none => trivial
          | some parent => exact (ih _).bind fun _ => trivial

theorem reads_buildLineageChain (task : Task) : (buildLineageChain task).Reads :=
  (reads_ancestorIds _ _).bind fun _ => trivial

theorem reads_listPage {ρ κ : Type} [LinearOrder κ] (selected : Store → List ρ) (key : ρ → κ)
    (cursor : Except Failure (Option κ)) (encode : ρ → String) (limit : Nat) :
    (listPage selected key cursor encode limit).Reads :=
  (Db.reads_query _).bind fun _ => (Db.reads_ofExcept _).bind fun _ => (Db.reads_query _).bind fun _ => trivial

theorem reads_listTasksEndpoint (env : Env) (backend : Backend) (workflowId : String) (query : TaskQuery)
    (limit : PageLimit) (cursor : Option String) :
    (listTasksEndpoint env backend workflowId query limit cursor).Reads := by
  refine Prog.Reads.bind ?_ fun _ => trivial
  exact (Db.reads_fetch _ _).bind fun _ => (Db.reads_ofExcept _).bind fun _ =>
    (Db.reads_ofExcept _).bind fun _ => reads_listPage _ _ _ _ _

theorem reads_listWorkflowsEndpoint (env : Env) (backend : Backend) (query : WorkflowQuery)
    (limit : PageLimit) (cursor : Option String) :
    (listWorkflowsEndpoint env backend query limit cursor).Reads := by
  refine Prog.Reads.bind ?_ fun _ => trivial
  refine (Db.reads_ofExcept _).bind fun _ => Db.reads_under _ ?_
  exact (Db.reads_ofExcept _).bind fun _ => reads_listPage _ _ _ _ _

theorem reads_getPendingSignals (env : Env) (agentId : String) : (getPendingSignals env agentId).Reads := by
  refine (Db.reads_query _).bind fun ids => ?_
  split
  · trivial
  · exact (Db.reads_query _).bind fun _ => (Db.reads_under _ (Db.reads_query _)).bind fun _ => trivial

theorem reads_getPendingTasks (value : SqlCall → Task → Int) (agentId : String) :
    (getPendingTasks value agentId).Reads :=
  (Db.reads_ofExcept _).bind fun _ => Db.reads_query _

theorem reads_getPendingTasksEndpoint (env : Env) (value : SqlCall → Task → Int) (auth agentId : String) :
    (getPendingTasksEndpoint env value auth agentId).Reads := by
  unfold getPendingTasksEndpoint
  split
  · trivial
  · exact (reads_getPendingTasks _ _).bind fun _ => (reads_getPendingSignals _ _).bind fun _ =>
      Prog.reads_pure _

theorem reads_getTaskEndpoint (env : Env) (workflowId taskId : String) :
    (getTaskEndpoint env workflowId taskId).Reads := by
  refine Prog.Reads.bind ?_ fun _ => trivial
  exact (Db.reads_fetch _ _).bind fun _ => Db.reads_fetch _ _

theorem reads_streamTaskEventsEndpoint (workflowId taskId : String) :
    (streamTaskEventsEndpoint workflowId taskId).Reads :=
  (Db.reads_fetch _ _).bind fun _ => (Db.reads_fetch _ _).bind fun _ => trivial

theorem reads_getAgentEndpoint (dump : Time → String) (agentId : String) :
    (getAgentEndpoint dump agentId).Reads := by
  refine (Prog.reads_select _).bind fun found => ?_
  cases found <;> trivial

theorem reads_getWorkflowEndpoint (env : Env) (workflowId : String) :
    (getWorkflowEndpoint env workflowId).Reads := by
  refine (Prog.reads_select _).bind fun found => ?_
  cases found <;> trivial

theorem Server.reads_identify (srv : Server) {now : Time} {req : Request} {endpoint : Endpoint} :
    (srv.identify now req endpoint).Reads := by
  unfold identify
  split
  · exact (requireAuth srv.crypto now req).reads_of_empty.embed.bind fun _ => Prog.reads_pure _
  · trivial

end reads

/-! ### The handlers -/

section handlers
variable {srv : Server} {req : Request} {d : Draws} {s : Store} {params : List (String × String)}

theorem wp_operation (op : Op) {endpoint : Endpoint} {input : endpoint.Input} {α : Type} {core : Db α}
    {f : α → Db Answer} {g : α → Db HttpResponse} (program : op.program srv.env = core >>= f)
    (reads : ∀ a, (g a).Reads) (routed : resolve req.method req.path = some (endpoint, params))
    (sent : srv.validate endpoint req = some input)
    (asked : endpoint.operation d params op.agent input = some op)
    (signed : SignedIn srv.crypto d.clk.now req s op.agent) :
    (Service.ofDb (core >>= g)).wp Store.flushService Keeps (Justified srv (.request req d))
      (fun _ _ => True) s := by
  have promised := op.wp_commits srv.env s
  rw [program] at promised
  exact wp_ofDb (Prog.wp_alike promised reads) fun _ _ own later =>
    .operated op endpoint params input routed sent asked (signed.mono later) own own.warranted

/-! #### Agents -/

theorem wp_registerAgentEndpoint (dump : Time → String) (body : RegisterAgentRequest)
    (routed : resolve req.method req.path = some (.registerAgent, params))
    (sent : srv.validate .registerAgent req = some body) :
    (Service.ofAgents (registerAgentEndpoint dump d.clk.now body)).wp Store.flushService Keeps
      (Justified srv (.request req d)) (fun _ _ => True) s := by
  refine wp_ofAgents (R := fun _ w => w = .insert (body.row d.clk.now)) ?_ ?_
  · simp only [registerAgentEndpoint, registerAgent, Agents.get, Agents.commit, Agents.refresh,
      Prog.wp_bind, Prog.wp_select]
    intro s₁ _
    cases s₁.agents.find? body.agentId with
    | some existing =>
        dsimp only
        split <;> trivial
    | none => simp
  · rintro s' w rfl _
    exact .registered body params routed sent

theorem wp_heartbeatEndpoint (dump : Time → String) (auth agentId : String)
    (routed : resolve req.method req.path = some (.heartbeat, params))
    (named : params.lookup "agent_id" = some agentId)
    (signed : SignedIn srv.crypto d.clk.now req s auth) :
    (Service.ofAgents (heartbeatEndpoint dump d.clk.now auth agentId)).wp Store.flushService Keeps
      (Justified srv (.request req d)) (fun _ _ => True) s := by
  refine wp_ofAgents (R := fun _ w => ∃ loaded, w = .heartbeat loaded d.clk.now ∧ loaded.id = agentId ∧
    auth = agentId) ?_ ?_
  · simp only [heartbeatEndpoint, Prog.wp_ite, heartbeat, Agents.get, Agents.commit, Agents.refresh,
      Prog.wp_bind, Prog.wp_select]
    refine ⟨fun _ => trivial, fun same s₁ _ => ?_⟩
    cases found : s₁.agents.find? agentId with
    | none => trivial
    | some agent =>
        have own : agent.id = agentId := (Table.find?_eq_some.mp found).2
        simp [own, not_not.mp same]
  · rintro s' w ⟨loaded, rfl, rfl, rfl⟩ later
    exact .heard loaded params routed named (signed.mono later)

theorem wp_sweep (timeoutSeconds : Int) (now : Time) :
    (Service.ofAgents (sweep timeoutSeconds now)).wp Store.flushService Keeps
      (Justified srv (.sweep now)) (fun _ _ => True) s := by
  refine wp_ofAgents (R := fun _ w => ∃ ids, w = .mark ids) ?_ ?_
  · simp only [sweep, Prog.wp_bind, Prog.wp_select, Prog.wp_ite, Agents.commit]
    refine fun s₁ _ => ⟨fun _ => trivial, fun _ => ?_⟩
    simp
  · rintro s' w ⟨ids, rfl⟩ _
    exact .swept ids

/-! #### Workflows -/

theorem Catalog.wp_check {α : Type} {R : Store → WorkflowWork → Prop} (r : Except Failure α)
    (Q : Except CatalogFailure α → Store → Prop) :
    (Catalog.check r).wp (fun w s => s.flushWorkflow w) Keeps R Q s ↔
      (∀ a, r = .ok a → Q (.ok a) s) ∧ ∀ e, r = .error e → Q (.error (.raised e)) s := by
  cases r with
  | ok a => simp [Catalog.check, Prog.wp]
  | error e => simp [Catalog.check, Prog.wp]

theorem wp_createWorkflowEndpoint (env : Env) (auth : String) (body : WorkflowCreateRequest)
    (routed : resolve req.method req.path = some (.createWorkflow, params))
    (sent : srv.validate .createWorkflow req = some body)
    (signed : SignedIn srv.crypto d.clk.now req s auth) :
    (Service.ofCatalog (createWorkflowEndpoint env d.clk auth body)).wp Store.flushService Keeps
      (Justified srv (.request req d)) (fun _ _ => True) s := by
  refine wp_ofCatalog (R := fun _ w => w = .insert ((body.request auth).row d.clk)) ?_ ?_
  · unfold createWorkflowEndpoint
    refine Prog.wp_then ?_ fun _ _ => trivial
    rw [createWorkflow, Prog.wp_bind, Catalog.wp_check]
    refine ⟨fun _ _ => ?_, fun _ _ => trivial⟩
    simp only [Catalog.get, Catalog.commit, Catalog.refresh, Prog.wp_bind, Prog.wp_select]
    intro s₁ _
    cases s₁.workflows.find? (body.request auth).workflowId with
    | some existing =>
        dsimp only
        split <;> trivial
    | none => simp
  · rintro s' w rfl later
    exact .catalogued body auth params routed sent (signed.mono later)

theorem wp_updateWorkflowEndpoint (env : Env) (auth workflowId : String) (body : WorkflowUpdateRequest)
    (routed : resolve req.method req.path = some (.updateWorkflow, params))
    (sent : srv.validate .updateWorkflow req = some body)
    (named : params.lookup "workflow_id" = some workflowId)
    (signed : SignedIn srv.crypto d.clk.now req s auth) :
    (Service.ofCatalog (updateWorkflowEndpoint env d.clk workflowId auth body)).wp Store.flushService Keeps
      (Justified srv (.request req d)) (fun _ _ => True) s := by
  refine wp_ofCatalog (R := fun s' w => ∃ loaded current stored, w = .update loaded current d.clk.dbNow ∧
    loaded.id = workflowId ∧ (body.request workflowId auth).assign d.clk loaded = .ok current ∧
    s'.workflows.find? loaded.id = some stored ∧ stored.ownerAgentId = auth) ?_ ?_
  · unfold updateWorkflowEndpoint
    refine Prog.wp_then ?_ fun _ _ => trivial
    simp only [updateWorkflow, Catalog.get, Catalog.commit, Catalog.refresh, Prog.wp_bind, Prog.wp_select]
    intro s₁ _
    cases found : s₁.workflows.find? (body.request workflowId auth).workflowId with
    | none => trivial
    | some loaded =>
        dsimp only
        rw [Prog.wp_ite]
        refine ⟨fun _ => trivial, fun same => ?_⟩
        rw [Prog.wp_bind, Catalog.wp_check]
        refine ⟨fun current assigned => ?_, fun _ _ => trivial⟩
        simp only [Prog.wp_bind, Prog.wp_submit, Prog.wp_select, Prog.wp_pure]
        refine fun s₂ keeps => ⟨?_, fun _ _ _ _ => trivial, fun _ _ => trivial⟩
        obtain ⟨stored, found', owner⟩ := keeps.owners _ _ found
        have own : loaded.id = workflowId := (Table.find?_eq_some.mp found).2
        exact ⟨loaded, current, stored, rfl, own, assigned, own ▸ found', owner.trans (not_not.mp same)⟩
  · rintro s' w ⟨loaded, current, stored, rfl, rfl, assigned, found, rfl⟩ later
    exact .edited body loaded current stored params routed sent named assigned found (signed.mono later)

theorem wp_onTask {op : String → String → String → Op} {endpoint : Endpoint} {input : endpoint.Input}
    {α : Type} {core : String → String → String → Db α} {f : String → String → String → α → Db Answer}
    {g : String → String → String → α → Db HttpResponse} {agent : Option String}
    (program : ∀ workflowId taskId auth, (op workflowId taskId auth).program srv.env =
      core workflowId taskId auth >>= f workflowId taskId auth)
    (reads : ∀ workflowId taskId auth a, (g workflowId taskId auth a).Reads)
    (routed : resolve req.method req.path = some (endpoint, params))
    (sent : srv.validate endpoint req = some input)
    (asked : ∀ workflowId taskId auth, (op workflowId taskId auth).agent = auth ∧
      endpoint.operation d params auth input = onPath params fun workflowId taskId => op workflowId taskId auth)
    (signed : ∀ auth, agent = some auth → SignedIn srv.crypto d.clk.now req s auth) :
    (Service.withParam params "workflow_id" fun workflowId => Service.withParam params "task_id" fun taskId =>
      Service.withAgent agent fun auth => Service.ofDb (core workflowId taskId auth >>=
        g workflowId taskId auth)).wp Store.flushService Keeps (Justified srv (.request req d))
      (fun _ _ => True) s := by
  refine wp_withParam fun workflowId inside => wp_withParam fun taskId on => wp_withAgent fun auth same => ?_
  obtain ⟨caller, operation⟩ := asked workflowId taskId auth
  refine wp_operation _ (program workflowId taskId auth) (reads workflowId taskId auth) routed sent ?_ ?_
  · rw [caller, operation]
    exact onPath_eq_some.mpr ⟨workflowId, taskId, inside, on, rfl⟩
  · rw [caller]
    exact signed auth same

end handlers

/-! ### A request -/

namespace Server
variable {srv : Server} {req : Request} {d : Draws} {s : Store} {params : List (String × String)}

theorem handle_justified (endpoint : Endpoint) (input : endpoint.Input) (agent : Option String)
    (routed : resolve req.method req.path = some (endpoint, params))
    (sent : srv.validate endpoint req = some input)
    (signed : ∀ auth, agent = some auth → SignedIn srv.crypto d.clk.now req s auth) :
    (srv.handle params agent d endpoint input).wp Store.flushService Keeps
      (Justified srv (.request req d)) (fun _ _ => True) s := by
  cases endpoint with
  | openapi | swaggerUi | swaggerUiRedirect | redoc | health | getManifest | root => trivial
  | registerAgent => exact wp_registerAgentEndpoint srv.dump input routed sent
  | heartbeat =>
      exact wp_withParam fun agentId named => wp_withAgent fun auth same =>
        wp_heartbeatEndpoint srv.dump auth agentId routed named (signed auth same)
  | getAgent =>
      exact wp_withParam fun agentId _ => wp_reads (reads_getAgentEndpoint srv.dump agentId).embed
  | getPendingTasks =>
      exact wp_withParam fun agentId _ => wp_withAgent fun auth _ =>
        wp_reads (reads_getPendingTasksEndpoint srv.env srv.sqlValue auth agentId).embed
  | createWorkflow =>
      exact wp_withAgent fun auth same =>
        wp_createWorkflowEndpoint srv.env auth input routed sent (signed auth same)
  | listWorkflows =>
      obtain ⟨query, limit, cursor⟩ := input
      exact wp_withAgent fun auth _ => wp_reads
        ((reads_listWorkflowsEndpoint srv.env srv.backend query limit cursor).bind
          fun _ => Prog.reads_pure _).embed
  | getWorkflow =>
      exact wp_withParam fun workflowId _ => wp_withAgent fun auth _ =>
        wp_reads (reads_getWorkflowEndpoint srv.env workflowId).embed
  | updateWorkflow =>
      exact wp_withParam fun workflowId named => wp_withAgent fun auth same =>
        wp_updateWorkflowEndpoint srv.env auth workflowId input routed sent named (signed auth same)
  | runTask =>
      refine wp_withParam fun workflowId inside => wp_withAgent fun auth same =>
        wp_operation (.createTask d.clk d.hex (input.1.request workflowId auth input.2)) rfl
          (fun _ => trivial) routed sent ?_ (signed auth same)
      simp only [Endpoint.operation, inside, Option.map_some]
      rfl
  | getTask =>
      exact wp_withParam fun workflowId _ => wp_withParam fun taskId _ =>
        wp_reads (reads_getTaskEndpoint srv.env workflowId taskId).embed
  | listTasks =>
      obtain ⟨query, limit, cursor⟩ := input
      exact wp_withParam fun workflowId _ => wp_reads
        ((reads_listTasksEndpoint srv.env srv.backend workflowId query limit cursor).bind
          fun _ => Prog.reads_pure _).embed
  | streamTaskEvents =>
      exact wp_withParam fun workflowId _ => wp_withParam fun taskId _ =>
        wp_reads (reads_streamTaskEventsEndpoint workflowId taskId).embed
  | cancelTaskEndpoint | pauseTaskEndpoint | resumeTaskEndpoint | injectContextEndpoint =>
      exact wp_onTask (fun _ _ _ => rfl) (fun _ _ _ _ => trivial) routed sent
        (fun _ _ _ => ⟨rfl, rfl⟩) signed
  | retaskTaskEndpoint =>
      refine wp_onTask (fun _ _ _ => rfl) (fun _ _ _ a => ?_) routed sent (fun _ _ _ => ⟨rfl, rfl⟩) signed
      exact (reads_buildLineageChain _).bind fun _ => (Db.reads_query _).bind fun _ => trivial
  | redirectTaskEndpoint =>
      refine wp_onTask (fun _ _ _ => rfl) (fun _ _ _ a => ?_) routed sent (fun _ _ _ => ⟨rfl, rfl⟩) signed
      exact (reads_buildLineageChain _).bind fun _ => trivial
  | postTaskEvent =>
      refine wp_withParam fun taskId on => wp_withAgent fun auth same =>
        wp_operation (.processSidecarEvent d.clk (input.request taskId auth)) rfl
          (fun _ => trivial) routed sent ?_ (signed auth same)
      simp only [Endpoint.operation, on, Option.map_some]
      rfl

theorem identify_signed (endpoint : Endpoint) :
    (srv.identify d.clk.now req endpoint).wp Store.flushService Keeps (Justified srv (.request req d))
      (fun r s' => ∀ auth, r = .ok (some auth) → SignedIn srv.crypto d.clk.now req s' auth) s := by
  unfold identify
  split
  · rw [Prog.wp_bind]
    refine Prog.wp_embed (fun w => w.elim) (fun _ w => w.elim) ?_ wp_gate
    intro r s' answered
    cases r with
    | error e => exact fun _ impossible => nomatch impossible
    | ok agent =>
        intro auth named
        cases agent with
        | none => cases named
        | some a =>
            cases named
            exact answered a rfl
  · exact fun _ impossible => nomatch impossible

/-- Whatever an arrival commits is justified at the store it is applied to, whatever others
commit while it runs. -/
theorem serve_justified (arrival : Incoming) (s : Store) :
    (srv.serve arrival).wp Store.flushService Keeps (Justified srv arrival) (fun _ _ => True) s := by
  cases arrival with
  | sweep now => exact Prog.wp_then (wp_sweep srv.heartbeatTimeoutSeconds now) fun _ _ => trivial
  | request req d =>
      unfold serve
      dsimp only
      cases routed : resolve req.method req.path with
      | none => trivial
      | some found =>
          obtain ⟨endpoint, params⟩ := found
          dsimp only
          rw [Prog.wp_bind]
          refine Prog.wp_mono (identify_signed endpoint) (fun _ _ promised => promised) fun r s' answered => ?_
          cases r with
          | error e => trivial
          | ok agent =>
              dsimp only
              cases sent : srv.validate endpoint req with
              | none => trivial
              | some input =>
                  refine Prog.wp_then (handle_justified endpoint input agent routed sent ?_) fun _ _ => trivial
                  rintro auth rfl
                  exact answered auth rfl

end Server
end Fleet.Api
