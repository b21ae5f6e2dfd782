/- The whole service, requests and sweeps interleaved statement by statement: each commit is
   attributed to the request that made it and to the agent that signed it. -/
import Fleet.Api.Accountability
import Fleet.System.Signing

namespace Fleet.System
open Fleet.Lib Fleet.Api

/-! ## The service -/

/-- A request or a sweep begins, or one that has begun runs its next statement. -/
inductive ServiceMove where
  | arrive (a : Incoming)
  | advance (i : Nat)

def ServiceMove.turn (srv : Server) : ServiceMove →
    Turn Store ServiceWork ServiceFailure (Option HttpResponse)
  | .arrive a => .start (srv.serve a)
  | .advance i => .advance i

/-- What has arrived, in the order of the positions. -/
def serviceArrivals : List ServiceMove → List Incoming
  | [] => []
  | .arrive a :: moves => a :: serviceArrivals moves
  | .advance _ :: moves => serviceArrivals moves

section service
variable (srv : Server) (s : Store) (moves : List ServiceMove)

def service : Pool Store ServiceWork ServiceFailure (Option HttpResponse) :=
  Pool.turns Store.flushService ⟨s, []⟩ (moves.map (ServiceMove.turn srv))

def serviceCommits (i : Nat) : List (Store × ServiceWork) :=
  Pool.historyOf Store.flushService i ⟨s, []⟩ (moves.map (ServiceMove.turn srv))

def serviceHistory : List (Store × ServiceWork) :=
  Pool.history Store.flushService ⟨s, []⟩ (moves.map (ServiceMove.turn srv))

end service

section runs
variable {srv : Server} {s : Store} {moves : List ServiceMove}

theorem arrivals_service (srv : Server) (moves : List ServiceMove) :
    Pool.arrivals (moves.map (ServiceMove.turn srv)) = (serviceArrivals moves).map srv.serve := by
  induction moves with
  | nil => rfl
  | cons move moves ih =>
      cases move with
      | arrive a => exact congrArg (srv.serve a :: ·) ih
      | advance i => exact ih

/-- Each commit of an arrival is justified by that arrival alone. -/
theorem serviceCommits_justified {i : Nat} {a : Incoming} (arrives : (serviceArrivals moves)[i]? = some a) :
    ∀ e ∈ serviceCommits srv s moves i, Justified srv a e.1 e.2 := by
  have position : (Pool.arrivals (moves.map (ServiceMove.turn srv)))[i]? = some (srv.serve a) := by
    rw [arrivals_service, List.getElem?_map, arrives, Option.map_some]
  have promised := (Pool.wp_arrived Keeps.refl Keeps.trans Keeps.flushService (fun _ _ _ _ _ => trivial)
    (c := ⟨s, []⟩) position (Server.serve_justified a)).2
  simpa [serviceCommits] using promised

theorem serviceHistory_arrived {e : Store × ServiceWork} (member : e ∈ serviceHistory srv s moves) :
    ∃ i a, (serviceArrivals moves)[i]? = some a ∧ e ∈ serviceCommits srv s moves i := by
  obtain ⟨i, own⟩ := Pool.historyOf_complete member
  have bound := Pool.historyOf_arrived own
  rw [arrivals_service, List.length_map, List.length_nil, Nat.zero_add] at bound
  exact ⟨i, _, List.getElem?_eq_getElem bound, own⟩

theorem serviceHistory_between {e : Store × ServiceWork} (member : e ∈ serviceHistory srv s moves) :
    Keeps e.1 (service srv s moves).store := by
  obtain ⟨_, s', committed, after⟩ :=
    Pool.history_between Keeps.refl Keeps.trans Keeps.flushService _ _ e member
  exact .trans _ _ _ (Keeps.flushService _ _ _ committed) after

end runs

/-- Whatever the service commits, under any interleaving of its requests and sweeps, is the
commit of one of them and justified by it: but for a registration of a new agent and the
sweep's marks, its sender holds the key of the agent in whose name it is done, and a commit
to a task is warranted to that agent. -/
theorem commits_justified (srv : Server) (s : Store) (moves : List ServiceMove) :
    ∀ e ∈ serviceHistory srv s moves, ∃ i a, (serviceArrivals moves)[i]? = some a ∧
      e ∈ serviceCommits srv s moves i ∧ Justified srv a e.1 e.2 := by
  intro e member
  obtain ⟨i, a, arrives, own⟩ := serviceHistory_arrived member
  exact ⟨i, a, arrives, own, serviceCommits_justified arrives e own⟩

/-! ## Whose tasks change -/

/-- The agents whose requests may change a task: its principal, the owner of its workflow
and its executor. -/
def HasSay (s : Store) (t : Task) (agent : String) : Prop :=
  agent = t.principalAgentId ∨ (∃ w, s.workflows.find? t.workflowId = some w ∧ agent = w.ownerAgentId) ∨
    t.executorAgentId = some agent

theorem authorized_hasSay {s : Store} {op : Op} {t : Task} (h : Authorized s op t) : HasSay s t op.agent := by
  cases h with
  | controls workflow _ _ _ known mayControl =>
      rcases mayControl with principal | owner
      · exact .inl principal
      · exact .inr (.inl ⟨workflow, known, owner⟩)
  | executes _ _ executor => exact .inr (.inr executor)

theorem HasSay.mono {s s' : Store} {t t' : Task} {agent : String} (h : HasSay s t agent) (keeps : Keeps s s')
    (origin : Task.SameOrigin t t') : HasSay s' t' agent := by
  rcases h with principal | ⟨w, known, owner⟩ | executor
  · exact .inl (principal.trans origin.principal.symm)
  · obtain ⟨w', known', same⟩ := keeps.owners _ _ known
    exact .inr (.inl ⟨w', origin.workflowId ▸ known', owner.trans same.symm⟩)
  · exact .inr (.inr (origin.executor.trans executor))

theorem flush_untouched {w : Work} {s s' : Store} (committed : Store.flush w s = .ok s') {id : String}
    {t : Task} (stored : s.tasks.find? id = some t) (untouched : ¬ w.Touches id) :
    s'.tasks.find? id = some t ∧ s'.eventsOf id = s.eventsOf id := by
  obtain ⟨mid, inserted, _, _, tasks, rows⟩ := Store.flush_ok committed
  have kept : mid.tasks.find? id = some t := by
    split at inserted
    · obtain ⟨_, _, _, table, added, rfl⟩ := Store.insertTask_ok inserted
      rw [Table.find?_insert? added, if_neg, stored]
      rintro rfl
      rw [Table.insert?_isSome.mp ⟨table, added⟩] at stored
      cases stored
    · cases inserted
      exact stored
  constructor
  · rw [tasks]
    split
    · rename_i loaded current dirty
      rw [Store.updateTask, Table.find?_modify, if_neg, kept]
      exact fun own => untouched (.inl ⟨loaded, current, dirty, own.symm⟩)
    · exact kept
  · have silent : w.newEvents.filter (fun e => e.taskId = id) = [] := by
      rw [List.filter_eq_nil_iff]
      intro e member
      simpa using fun own => untouched (.inr ⟨e, member, own⟩)
    rw [eventsOf_append rows, silent, List.append_nil]

theorem flushWorkflow_frame {w : WorkflowWork} {s s' : Store} (h : s.flushWorkflow w = .ok s') :
    s'.tasks = s.tasks ∧ s'.events = s.events := by
  unfold Store.flushWorkflow at h
  cases w with
  | insert row =>
      dsimp only at h
      split_ifs at h
      split at h <;> cases h
      exact ⟨rfl, rfl⟩
  | update loaded current dbNow =>
      dsimp only at h
      split at h
      · cases h
      · split at h <;> cases h
        exact ⟨rfl, rfl⟩

theorem flushAgent_frame {w : AgentWork} {s s' : Store} (h : s.flushAgent w = .ok s') :
    s'.tasks = s.tasks ∧ s'.events = s.events := by
  unfold Store.flushAgent at h
  cases w with
  | insert row =>
      dsimp only at h
      split_ifs at h
      split at h <;> cases h
      exact ⟨rfl, rfl⟩
  | heartbeat loaded now =>
      dsimp only at h
      split at h <;> cases h
      exact ⟨rfl, rfl⟩
  | mark ids =>
      cases h
      exact ⟨rfl, rfl⟩

theorem flushService_changes {w : ServiceWork} {s s' : Store} (committed : s.flushService w = .ok s')
    {id : String} {t : Task} {log : List TaskEvent} (before : s.tasks.find? id = some t ∧ s.eventsOf id = log)
    (after : ¬ (s'.tasks.find? id = some t ∧ s'.eventsOf id = log)) :
    ∃ u, w = .tasks u ∧ Store.flush u s = .ok s' ∧ u.Touches id := by
  obtain ⟨stored, rfl⟩ := before
  cases w with
  | tasks u =>
      refine ⟨u, rfl, mapError_ok committed, ?_⟩
      by_contra untouched
      exact after (flush_untouched (mapError_ok committed) stored untouched)
  | workflows w =>
      obtain ⟨tasks, events⟩ := flushWorkflow_frame (mapError_ok committed)
      rw [tasks, Store.eventsOf, events] at after
      exact absurd ⟨stored, rfl⟩ after
  | agents w =>
      obtain ⟨tasks, events⟩ := flushAgent_frame (mapError_ok committed)
      rw [tasks, Store.eventsOf, events] at after
      exact absurd ⟨stored, rfl⟩ after

/-- A stored task whose row or log is another after a run was changed by a request to its
path, which the principal of the task, the owner of its workflow or its executor signed. -/
theorem altered_by_authority (srv : Server) (s : Store) (moves : List ServiceMove) (id : String) (t : Task)
    (stored : s.tasks.find? id = some t)
    (altered : (service srv s moves).store.tasks.find? id ≠ some t ∨
      (service srv s moves).store.eventsOf id ≠ s.eventsOf id) :
    ∃ req d endpoint params agent, Incoming.request req d ∈ serviceArrivals moves ∧
      resolve req.method req.path = some (endpoint, params) ∧ params.lookup "task_id" = some id ∧
      SignedIn srv.crypto d.clk.now req (service srv s moves).store agent ∧
      HasSay (service srv s moves).store t agent := by
  have broken : ¬ ((service srv s moves).store.tasks.find? id = some t ∧
      (service srv s moves).store.eventsOf id = s.eventsOf id) := by
    rintro ⟨row, log⟩
    rcases altered with other | other
    · exact other row
    · exact other log
  obtain ⟨e, member, s', before, committed, after⟩ := Pool.broken_by
    (I := fun s' : Store => s'.tasks.find? id = some t ∧ s'.eventsOf id = s.eventsOf id) ⟨stored, rfl⟩ _ broken
  obtain ⟨u, same, flushed, touched⟩ := flushService_changes committed before after
  obtain ⟨i, a, arrives, own⟩ := serviceHistory_arrived member
  have justified := serviceCommits_justified arrives e own
  have later := serviceHistory_between member
  rw [same] at justified
  cases justified with
  | @operated req d _ _ op endpoint params input routed sent asked signed commits warranted =>
      have authorized := warranted.touches s' flushed id t before.1 touched
      have own : t.id = id := (Table.find?_eq_some.mp stored).2
      refine ⟨req, d, endpoint, params, op.agent, List.mem_of_getElem? arrives, routed,
        operation_target asked (own ▸ authorized.addressed), signed.mono later, ?_⟩
      exact (authorized_hasSay authorized).mono later (.refl t)

/-! ### A signed cancellation -/

namespace Demo

def cancelSignature : Bytes :=
  [94, 246, 234, 145, 211, 181, 127, 71, 41, 23, 155, 11, 156, 235, 1, 121, 17, 239, 249, 125,
    100, 204, 67, 189, 242, 1, 77, 47, 35, 159, 242, 191, 193, 73, 102, 195, 53, 240, 113, 67, 29,
    88, 39, 206, 157, 118, 151, 17, 84, 209, 202, 158, 106, 193, 106, 173, 77, 161, 181, 190, 108,
    255, 245, 4]

def cancelText : Bytes :=
  utf8 ("POST\n/workflows/wf/tasks/task-a/cancel\n1970-01-01T00:00:03+00:00\n" ++ emptyDigest)

/-- Ed25519 on this key and this text, SHA-256 on the empty body. -/
def cancelCrypto : Crypto where
  PublicKey := Bytes
  PrivateKey := Bytes
  publicKey := publicOf
  fromPublicBytes := crypto.fromPublicBytes
  sign _ _ := cancelSignature
  verify key sig m := key = publicKey ∧ sig = cancelSignature ∧ m = cancelText
  sha256 := digest

def cancelRequest : Request where
  method := "POST"
  path := "/workflows/wf/tasks/task-a/cancel"
  url := {
    path := "/workflows/wf/tasks/task-a/cancel"
    query := ""
    path_plain := List.all_iff_forall_prop.mp (by decide)
    query_plain := List.all_iff_forall_prop.mp (by decide) }
  authorization := some ("Signature principal:XvbqkdO1f0cpF5sLnOsBeRHv+X1kzEO98gFNLyOf" ++
    "8r/BSWbDNfBxQx1YJ86ddpcRVNHKnmrBaq1NobW+bP/1BA==")
  fleetTimestamp := some "1970-01-01T00:00:03+00:00"
  body := []
  method_plain := by decide
  timestamp_plain := by rintro _ ⟨⟩; decide

def enrolledStore : Store := { Api.Demo.store with
  agents := ⟨[{ Api.Demo.agent "principal" with
      publicKey := Base64.b64encode publicKey
      lastHeartbeat := some 0 }, Api.Demo.agent "executor"], by decide⟩ }

def server : Server where
  crypto := cancelCrypto
  env := Api.Demo.env
  backend := Api.Demo.backend
  dump := Api.Demo.isoformat
  validate e _ := match e with
    | .cancelTaskEndpoint => some none
    | _ => none
  page _ := ⟨200, []⟩
  sqlValue _ t := priorityOrder t.priority
  heartbeatTimeoutSeconds := 90

def cancelMoves : List ServiceMove := [
  .arrive (.request cancelRequest ⟨Api.Demo.at' 4, "c", 1⟩), .advance 0,
  .arrive (.sweep 100000000), .advance 1, .advance 0, .advance 1, .advance 0, .advance 0, .advance 0,
  .advance 0, .advance 0]

def cancelStore : Store := runSteps Api.Demo.env Api.Demo.running enrolledStore

end Demo

/-- The sweep and the cancellation both commit. -/
theorem commits_justified_cancel : ∃ e ∈ serviceHistory Demo.server Demo.cancelStore Demo.cancelMoves,
    ∃ i a, (serviceArrivals Demo.cancelMoves)[i]? = some a ∧
      e ∈ serviceCommits Demo.server Demo.cancelStore Demo.cancelMoves i ∧ Justified Demo.server a e.1 e.2 := by
  have commits : (serviceHistory Demo.server Demo.cancelStore Demo.cancelMoves).length = 2 := by decide +kernel
  obtain ⟨e, member⟩ := List.length_pos_iff_exists_mem.mp (by
    rw [commits]
    exact Nat.zero_lt_two)
  exact ⟨e, member, commits_justified Demo.server Demo.cancelStore Demo.cancelMoves e member⟩

theorem altered_by_authority_cancel : ∃ t, Demo.cancelStore.tasks.find? "task-a" = some t ∧
    ∃ agent, SignedIn Demo.cancelCrypto 4000000 Demo.cancelRequest
        (service Demo.server Demo.cancelStore Demo.cancelMoves).store agent ∧
      HasSay (service Demo.server Demo.cancelStore Demo.cancelMoves).store t agent := by
  have before : (Demo.cancelStore.tasks.find? "task-a").map Task.status = some .running := by decide +kernel
  have after : ((service Demo.server Demo.cancelStore Demo.cancelMoves).store.tasks.find? "task-a").map
      Task.status = some .cancelled := by decide +kernel
  obtain ⟨t, stored, running⟩ := Option.map_eq_some_iff.mp before
  have altered : (service Demo.server Demo.cancelStore Demo.cancelMoves).store.tasks.find? "task-a" ≠ some t := by
    intro same
    rw [same, Option.map_some, running] at after
    cases after
  obtain ⟨req, d, _, _, agent, arrived, _, _, signed, say⟩ :=
    altered_by_authority Demo.server Demo.cancelStore Demo.cancelMoves "task-a" t stored (.inl altered)
  refine ⟨t, stored, agent, ?_, say⟩
  simp only [Demo.cancelMoves, serviceArrivals, List.mem_cons, reduceCtorEq, List.not_mem_nil, or_false,
    Incoming.request.injEq] at arrived
  obtain ⟨rfl, rfl⟩ := arrived
  exact signed

end Fleet.System
