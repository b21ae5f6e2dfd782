/- Workflow registration, the owner's updates and runs of both. -/
import Fleet.Lib.JsonEqual
import Fleet.Lib.Machine
import Fleet.Api.Lifecycle
import Fleet.Api.ListLinks

namespace Fleet.Api
open Fleet.Lib

deriving instance DecidableEq for Workflow

structure WorkflowCreate where
  workflowId : String
  ownerAgentId : String
  name : String
  description : Option String := none
  tags : Option (List String) := none
  inputSchema : Json := .null
  outputSchema : Json := .null
  timeoutSeconds : Option Int := none
  resultRetentionDays : Int := 30

structure WorkflowUpdate where
  workflowId : String
  callerAgentId : String
  name : Option String := none
  description : Option String := none
  tags : Option (List String) := none
  inputSchema : Json := .null
  outputSchema : Json := .null
  timeoutSeconds : Option Int := none
  resultRetentionDays : Option Int := none
  status : Option String := none
  providedFields : Option (List String) := none

/-! ## Refusals -/

def schemaNotObject (fieldName : String) : FleetAPIError where
  kind := .inputValidation
  code := .invalidInput
  message := s!"{fieldName} must be a JSON object."
  suggestion := some s!"Provide {fieldName} as a JSON object with at least a 'type' key."

def schemaWithoutType (fieldName : String) : FleetAPIError where
  kind := .inputValidation
  code := .invalidInput
  message := s!"{fieldName} must contain a 'type' key."
  suggestion := some (s!"Provide {fieldName} as a JSON Schema object, e.g. "
    ++ "\x7b\"type\": \"object\", \"properties\": \x7b...\x7d\x7d.")

def workflowTaken (workflowId : String) : FleetAPIError where
  kind := .conflict
  code := .workflowExists
  message := s!"Workflow '{workflowId}' already exists."
  suggestion := some "Choose a different workflow ID or contact the workflow owner."
  links := [("existing", .obj [("href", .str s!"/workflows/{workflowId}")])]

def notOwner : FleetAPIError where
  kind := .auth
  code := .notAuthorized
  message := "Only the workflow owner can update this workflow."
  suggestion := some "Contact the workflow owner to make changes."

def invalidWorkflowStatus (status : String) : FleetAPIError where
  kind := .inputValidation
  code := .invalidInput
  message := s!"Invalid status '{status}'."
  suggestion := some "Use 'active' or 'deprecated'."

/-! ## Arguments -/

def validateJsonSchemaField (schema : Json) (fieldName : String) : Except Failure Unit :=
  match schema with
  | .null => .ok ()
  | .obj d => if Dict.has d "type" then .ok () else .error (.api (schemaWithoutType fieldName))
  | _ => .error (.api (schemaNotObject fieldName))

/-- The value of a schema column: `None` or a dictionary. -/
def schemaColumn : Json → Option Dict
  | .obj d => some d
  | _ => none

def WorkflowCreate.validate (req : WorkflowCreate) : Except Failure Unit := do
  validateWorkflowId req.workflowId
  validateJsonSchemaField req.inputSchema "input_schema"
  validateJsonSchemaField req.outputSchema "output_schema"

def WorkflowCreate.row (clk : Clock) (req : WorkflowCreate) : Workflow where
  id := req.workflowId
  name := req.name
  ownerAgentId := req.ownerAgentId
  description := req.description
  inputSchema := schemaColumn req.inputSchema
  outputSchema := schemaColumn req.outputSchema
  estimatedDurationSeconds := none
  timeoutSeconds := req.timeoutSeconds
  resultRetentionDays := req.resultRetentionDays
  status := .active
  tags := req.tags
  createdAt := clk.now
  updatedAt := none

namespace WorkflowUpdate

/-- `_provided_fields or set()`. -/
def provided (req : WorkflowUpdate) : List String := req.providedFields.getD []

/-- A schema is checked only where the call provides it. -/
def assignSchema (req : WorkflowUpdate) (fieldName : String) (schema : Json) (stored : Option Dict) :
    Except Failure (Option Dict) :=
  if fieldName ∈ req.provided then
    match validateJsonSchemaField schema fieldName with
    | .ok () => .ok (schemaColumn schema)
    | .error e => .error e
  else .ok stored

def assignStatus (req : WorkflowUpdate) (stored : WorkflowStatus) : Except Failure WorkflowStatus :=
  if "status" ∈ req.provided then
    match req.status with
    | none => .ok stored
    | some text =>
        match WorkflowStatus.ofValue? text with
        | some status => .ok status
        | none => .error (.api (invalidWorkflowStatus text))
  else .ok stored

/-- The assignments to the loaded row, in the order of the source; one that raises
leaves a row that is never written. -/
def assign (req : WorkflowUpdate) (clk : Clock) (workflow : Workflow) : Except Failure Workflow := do
  let workflow := { workflow with
    name := if "name" ∈ req.provided then req.name.getD workflow.name else workflow.name }
  let workflow := { workflow with
    description := if "description" ∈ req.provided then req.description else workflow.description }
  let workflow := { workflow with
    tags := if "tags" ∈ req.provided then req.tags else workflow.tags }
  let inputSchema ← req.assignSchema "input_schema" req.inputSchema workflow.inputSchema
  let workflow := { workflow with inputSchema }
  let outputSchema ← req.assignSchema "output_schema" req.outputSchema workflow.outputSchema
  let workflow := { workflow with outputSchema }
  let workflow := { workflow with
    timeoutSeconds := if "timeout_seconds" ∈ req.provided then req.timeoutSeconds
      else workflow.timeoutSeconds }
  let workflow := { workflow with
    resultRetentionDays := if "result_retention_days" ∈ req.provided
      then req.resultRetentionDays.getD workflow.resultRetentionDays
      else workflow.resultRetentionDays }
  let status ← req.assignStatus workflow.status
  return { workflow with status, updatedAt := some clk.now }

end WorkflowUpdate

/-! ## The commit -/

inductive WorkflowWork where
  | insert (workflow : Workflow)
  | update (loaded current : Workflow) (dbNow : Time)

/-- What ends a call early: a raise of the service, or a constraint of the table. -/
inductive CatalogFailure where
  | raised (e : Failure)
  | valueOutOfRange | foreignKey | duplicateKey | staleRow
  deriving DecidableEq

def Workflow.fits (w : Workflow) : Bool :=
  w.id.length ≤ 128 && w.name.length ≤ 256 && w.timeoutSeconds.all fitsInteger
    && fitsInteger w.resultRetentionDays

def schemaJson (schema : Option Dict) : Json := (schema.map .obj).getD .null

/-- A JSON column that the session holds equal to what it loaded is not written. -/
def schemaEqual (loaded current : Option Dict) : Bool := (schemaJson current).equal (schemaJson loaded)

def jsonColumn (loaded current stored : Option Dict) : Option Dict :=
  if schemaEqual loaded current then stored else current

/-- Nothing is to be written. -/
def Workflow.unchanged (loaded current : Workflow) : Bool :=
  { current with inputSchema := loaded.inputSchema, outputSchema := loaded.outputSchema } = loaded
    && schemaEqual loaded.inputSchema current.inputSchema
    && schemaEqual loaded.outputSchema current.outputSchema

/-- The row after the session writes back the changed columns of a workflow it
loaded; `updated_at` takes the time of the transaction where another column changed
and the session left it as loaded. -/
def Workflow.writeBack (dbNow : Time) (loaded current stored : Workflow) : Workflow :=
  { stored with
    name := Task.column loaded.name current.name stored.name
    description := Task.column loaded.description current.description stored.description
    tags := Task.column loaded.tags current.tags stored.tags
    inputSchema := jsonColumn loaded.inputSchema current.inputSchema stored.inputSchema
    outputSchema := jsonColumn loaded.outputSchema current.outputSchema stored.outputSchema
    timeoutSeconds := Task.column loaded.timeoutSeconds current.timeoutSeconds stored.timeoutSeconds
    resultRetentionDays :=
      Task.column loaded.resultRetentionDays current.resultRetentionDays stored.resultRetentionDays
    status := Task.column loaded.status current.status stored.status
    updatedAt :=
      if current.updatedAt ≠ loaded.updatedAt then current.updatedAt
      else if Workflow.unchanged loaded current then stored.updatedAt
      else some dbNow }

@[simp] theorem Workflow.writeBack_id (dbNow : Time) (loaded current stored : Workflow) :
    (Workflow.writeBack dbNow loaded current stored).id = stored.id := rfl

namespace Store

def flushWorkflow (w : WorkflowWork) (s : Store) : Except CatalogFailure Store :=
  match w with
  | .insert workflow =>
      if !workflow.fits then .error .valueOutOfRange
      else if (s.agents.find? workflow.ownerAgentId).isNone then .error .foreignKey
      else
        match s.workflows.insert? workflow with
        | some workflows => .ok { s with workflows }
        | none => .error .duplicateKey
  | .update loaded current dbNow =>
      match s.workflows.find? loaded.id with
      | none => .error .staleRow
      | some stored =>
          if !(Workflow.writeBack dbNow loaded current stored).fits then .error .valueOutOfRange
          else
            let workflows := s.workflows.modify loaded.id (Workflow.writeBack dbNow loaded current)
              (Workflow.writeBack_id dbNow loaded current)
            .ok { s with workflows }

end Store

/-! ## The two operations -/

abbrev Catalog := Prog Store WorkflowWork CatalogFailure

namespace Catalog
variable {α : Type}

def raise (e : FleetAPIError) : Catalog α := Prog.raise (.raised (.api e))

def check : Except Failure α → Catalog α
  | .ok a => .done (.ok a)
  | .error e => .done (.error (.raised e))

def get (workflowId : String) : Catalog (Option Workflow) :=
  .read fun s => pure (s.workflows.find? workflowId)

def commit (w : WorkflowWork) : Catalog Unit := Prog.commit w (pure ())

def refresh (workflow : Workflow) : Catalog Workflow := do
  return (← get workflow.id).getD workflow

end Catalog

def createWorkflow (clk : Clock) (req : WorkflowCreate) : Catalog Workflow := do
  Catalog.check req.validate
  match ← Catalog.get req.workflowId with
  | some existing =>
      if existing.ownerAgentId ≠ req.ownerAgentId then Catalog.raise (workflowTaken req.workflowId)
      else return existing
  | none =>
      Catalog.commit (.insert (req.row clk))
      Catalog.refresh (req.row clk)

def updateWorkflow (clk : Clock) (req : WorkflowUpdate) : Catalog Workflow := do
  match ← Catalog.get req.workflowId with
  | none => Catalog.raise (workflowNotFound req.workflowId)
  | some loaded =>
      if loaded.ownerAgentId ≠ req.callerAgentId then Catalog.raise notOwner
      else
        let workflow ← Catalog.check (req.assign clk loaded)
        Catalog.commit (.update loaded workflow clk.dbNow)
        Catalog.refresh workflow

/-! ## What a call answers and leaves -/

/-- A stored schema names its type. -/
def Typed (schema : Option Dict) : Prop := ∀ d, schema = some d → Dict.has d "type" = true

theorem validateJsonSchemaField_typed {schema : Json} {fieldName : String}
    (valid : validateJsonSchemaField schema fieldName = .ok ()) : Typed (schemaColumn schema) := by
  intro d given
  cases schema with
  | obj e =>
      cases given
      simp only [validateJsonSchemaField] at valid
      split at valid
      · assumption
      · cases valid
  | _ => cases given

theorem WorkflowCreate.validate_typed {req : WorkflowCreate} (valid : req.validate = .ok ()) :
    Typed (schemaColumn req.inputSchema) ∧ Typed (schemaColumn req.outputSchema) := by
  unfold validate at valid
  cases id : validateWorkflowId req.workflowId with
  | error e => rw [id] at valid; cases valid
  | ok _ =>
      cases input : validateJsonSchemaField req.inputSchema "input_schema" with
      | error e => rw [id, input] at valid; cases valid
      | ok _ =>
          rw [id, input] at valid
          exact ⟨validateJsonSchemaField_typed input, validateJsonSchemaField_typed valid⟩

/-- What becomes of a schema, by what was stored, what it was set to and what is left. -/
abbrev SchemaFate := Option Dict → Option Dict → Option Dict → Prop

def AsAssigned : SchemaFate := fun _ given after => after = given

def AsWritten : SchemaFate := fun before given after => after = jsonColumn before given before

/-- What is left is what was given, up to the order of keys. -/
def AsProvided : SchemaFate := fun _ given after => Json.Same (schemaJson after) (schemaJson given)

/-- A schema that is equal to the stored one for Python is the same value. -/
def Distinct (before given : Option Dict) : Prop :=
  schemaEqual before given = true → Json.Same (schemaJson before) (schemaJson given)

/-- A column takes what it is given exactly where that is told from what it holds. -/
theorem asWritten_iff {c : Prop} [Decidable c] {before given after : Option Dict}
    (written : AsWritten before (if c then given else before) after) :
    AsProvided before (if c then given else before) after ↔ (c → Distinct before given) := by
  unfold AsWritten jsonColumn at written
  unfold AsProvided Distinct
  by_cases provided : c
  · rw [if_pos provided] at written ⊢
    by_cases equal : schemaEqual before given = true
    · rw [if_pos equal] at written
      rw [written]
      exact ⟨fun same _ _ => same, fun distinct => distinct provided equal⟩
    · rw [if_neg equal] at written
      rw [written]
      exact iff_of_true (Json.Same.refl _) fun _ same => absurd same equal
  · rw [if_neg provided, ite_self] at written
    rw [if_neg provided, written]
    exact iff_of_true (Json.Same.refl _) fun given => absurd given provided

namespace WorkflowUpdate
variable {req : WorkflowUpdate} {clk : Clock}

theorem assignSchema_ok {fieldName : String} {schema : Json} {stored left : Option Dict}
    (h : req.assignSchema fieldName schema stored = .ok left) :
    left = (if fieldName ∈ req.provided then schemaColumn schema else stored) ∧
      (Typed stored → Typed left) := by
  unfold assignSchema at h
  split at h
  · rename_i given
    rw [if_pos given]
    split at h
    · rename_i valid
      cases h
      exact ⟨rfl, fun _ => validateJsonSchemaField_typed valid⟩
    · cases h
  · rename_i absent
    cases h
    exact ⟨(if_neg absent).symm, id⟩

theorem assignStatus_ok {stored left : WorkflowStatus} (h : req.assignStatus stored = .ok left) :
    left = if "status" ∈ req.provided then (req.status.bind WorkflowStatus.ofValue?).getD stored
      else stored := by
  unfold assignStatus at h
  split at h
  · rename_i given
    rw [if_pos given]
    split at h
    · rename_i absent
      cases h
      rw [absent]
      rfl
    · rename_i text found
      split at h
      · rename_i status named
        cases h
        rw [found, Option.bind_some, named]
        rfl
      · cases h
  · rename_i absent
    cases h
    exact (if_neg absent).symm

/-- What an update may leave of a row: the provided fields as provided, null clearing
only where the column may be null, and `updated_at`; a schema as its fate says. -/
structure Assigned (req : WorkflowUpdate) (fate : SchemaFate) (clk : Clock) (before after : Workflow) : Prop where
  id : after.id = before.id
  owner : after.ownerAgentId = before.ownerAgentId
  name : after.name =
    if "name" ∈ req.provided then req.name.getD before.name else before.name
  description : after.description =
    if "description" ∈ req.provided then req.description else before.description
  tags : after.tags = if "tags" ∈ req.provided then req.tags else before.tags
  inputSchema : fate before.inputSchema
    (if "input_schema" ∈ req.provided then schemaColumn req.inputSchema else before.inputSchema)
    after.inputSchema
  outputSchema : fate before.outputSchema
    (if "output_schema" ∈ req.provided then schemaColumn req.outputSchema else before.outputSchema)
    after.outputSchema
  timeoutSeconds : after.timeoutSeconds =
    if "timeout_seconds" ∈ req.provided then req.timeoutSeconds else before.timeoutSeconds
  resultRetentionDays : after.resultRetentionDays =
    if "result_retention_days" ∈ req.provided
      then req.resultRetentionDays.getD before.resultRetentionDays else before.resultRetentionDays
  status : after.status =
    if "status" ∈ req.provided then (req.status.bind WorkflowStatus.ofValue?).getD before.status
      else before.status
  estimatedDuration : after.estimatedDurationSeconds = before.estimatedDurationSeconds
  createdAt : after.createdAt = before.createdAt
  updatedAt : after.updatedAt = some clk.now ∨ after.updatedAt = some clk.dbNow

/-- No provided schema is taken for the stored one that is another value. -/
structure Distinguishes (req : WorkflowUpdate) (before : Workflow) : Prop where
  inputSchema : "input_schema" ∈ req.provided → Distinct before.inputSchema (schemaColumn req.inputSchema)
  outputSchema : "output_schema" ∈ req.provided → Distinct before.outputSchema (schemaColumn req.outputSchema)

theorem Assigned.iff_distinguishes {before after : Workflow} (h : req.Assigned AsWritten clk before after) :
    req.Assigned AsProvided clk before after ↔ req.Distinguishes before := by
  constructor
  · intro provided
    exact ⟨(asWritten_iff h.inputSchema).mp provided.inputSchema,
      (asWritten_iff h.outputSchema).mp provided.outputSchema⟩
  · intro distinguishes
    exact { h with
      inputSchema := (asWritten_iff h.inputSchema).mpr distinguishes.inputSchema
      outputSchema := (asWritten_iff h.outputSchema).mpr distinguishes.outputSchema }

end WorkflowUpdate

theorem WorkflowUpdate.assign_ok {req : WorkflowUpdate} {clk : Clock} {before after : Workflow}
    (h : req.assign clk before = .ok after) : req.Assigned AsAssigned clk before after ∧
      (Typed before.inputSchema → Typed after.inputSchema) ∧
      (Typed before.outputSchema → Typed after.outputSchema) := by
  unfold assign at h
  dsimp only at h
  cases input : req.assignSchema "input_schema" req.inputSchema before.inputSchema with
  | error e => rw [input] at h; cases h
  | ok inputSchema =>
      cases output : req.assignSchema "output_schema" req.outputSchema before.outputSchema with
      | error e => rw [input] at h; simp only [output] at h; cases h
      | ok outputSchema =>
          cases named : req.assignStatus before.status with
          | error e => rw [input] at h; simp only [output, named] at h; cases h
          | ok status =>
              rw [input] at h
              simp only [output, named] at h
              cases h
              obtain ⟨inputValue, inputTyped⟩ := assignSchema_ok input
              obtain ⟨outputValue, outputTyped⟩ := assignSchema_ok output
              exact ⟨⟨rfl, rfl, rfl, rfl, rfl, inputValue, outputValue, rfl, rfl, assignStatus_ok named,
                rfl, rfl, .inl rfl⟩, inputTyped, outputTyped⟩

theorem WorkflowUpdate.Assigned.writeBack {req : WorkflowUpdate} {clk : Clock}
    {loaded current : Workflow} (h : req.Assigned AsAssigned clk loaded current) :
    req.Assigned AsWritten clk loaded (Workflow.writeBack clk.dbNow loaded current loaded) := by
  have updatedAt : (Workflow.writeBack clk.dbNow loaded current loaded).updatedAt = some clk.now ∨
      (Workflow.writeBack clk.dbNow loaded current loaded).updatedAt = some clk.dbNow := by
    simp only [Workflow.writeBack]
    split
    · exact h.updatedAt
    · rename_i same
      split
      · rw [← not_not.mp same]
        exact h.updatedAt
      · exact .inr rfl
  have input := h.inputSchema
  have output := h.outputSchema
  unfold AsAssigned at input output
  refine ⟨rfl, rfl, ?_, ?_, ?_, ?_, ?_, ?_, ?_, ?_, rfl, rfl, updatedAt⟩ <;>
    simp only [Workflow.writeBack, Task.column_stored, AsWritten]
  · exact h.name
  · exact h.description
  · exact h.tags
  · rw [input]
  · rw [output]
  · exact h.timeoutSeconds
  · exact h.resultRetentionDays
  · exact h.status

theorem jsonColumn_typed {loaded current : Option Dict} (stays : Typed loaded → Typed current) :
    Typed loaded → Typed (jsonColumn loaded current loaded) := by
  intro typed
  unfold jsonColumn
  split
  · exact typed
  · exact stays typed

/-! ## Runs -/

inductive WorkflowCall where
  | create (clk : Clock) (req : WorkflowCreate)
  | update (clk : Clock) (req : WorkflowUpdate)

def WorkflowCall.program : WorkflowCall → Catalog Workflow
  | .create clk req => createWorkflow clk req
  | .update clk req => updateWorkflow clk req

def WorkflowCall.exec (c : WorkflowCall) (s : Store) : Except CatalogFailure Workflow × Store :=
  c.program.run Store.flushWorkflow s

/-- A call, or any other request; no other writes workflows. -/
inductive CatalogStep where
  | call (c : WorkflowCall)
  | others (agents : Table String Agent Agent.id) (tasks : Table String Task Task.id)
      (events : Table (String × Int) TaskEvent TaskEvent.slot)

def CatalogStep.exec : CatalogStep → Store → Store
  | .call c, s => (c.exec s).2
  | .others agents tasks events, s => { s with agents, tasks, events }

def catalogue : Machine Store CatalogStep Empty where
  step s a := (a.exec s, [])

def catalogued (s : Store) (steps : List CatalogStep) : Store := (catalogue.run s steps).1

structure Store.Puts (s s' : Store) (w : Workflow) : Prop where
  row : ∀ id, s'.workflows.find? id = if w.id = id then some w else s.workflows.find? id
  frame : s' = { s with workflows := s'.workflows }

/-- What a call answers at a store, and the store it leaves. -/
inductive WorkflowOutcome (s : Store) :
    WorkflowCall → Except CatalogFailure Workflow → Store → Prop
  | refused (c : WorkflowCall) (e : CatalogFailure) : WorkflowOutcome s c (.error e) s
  | found (clk : Clock) (req : WorkflowCreate) (w : Workflow)
      (stored : s.workflows.find? req.workflowId = some w) (own : w.ownerAgentId = req.ownerAgentId) :
      WorkflowOutcome s (.create clk req) (.ok w) s
  | created (clk : Clock) (req : WorkflowCreate) (s' : Store) (valid : req.validate = .ok ())
      (absent : s.workflows.find? req.workflowId = none) (puts : s.Puts s' (req.row clk)) :
      WorkflowOutcome s (.create clk req) (.ok (req.row clk)) s'
  | updated (clk : Clock) (req : WorkflowUpdate) (loaded written : Workflow) (s' : Store)
      (stored : s.workflows.find? req.workflowId = some loaded)
      (own : loaded.ownerAgentId = req.callerAgentId) (assigned : req.Assigned AsWritten clk loaded written)
      (input : Typed loaded.inputSchema → Typed written.inputSchema)
      (output : Typed loaded.outputSchema → Typed written.outputSchema)
      (puts : s.Puts s' written) : WorkflowOutcome s (.update clk req) (.ok written) s'

theorem flushWorkflow_insert {s s' : Store} {w : Workflow}
    (h : s.flushWorkflow (.insert w) = .ok s') : s.Puts s' w := by
  unfold Store.flushWorkflow at h
  dsimp only at h
  split_ifs at h
  split at h
  · rename_i workflows inserted
    cases h
    exact ⟨fun id => Table.find?_insert? inserted, rfl⟩
  · cases h

theorem flushWorkflow_update {s s' : Store} {loaded current : Workflow} {dbNow : Time}
    (stored : s.workflows.find? loaded.id = some loaded)
    (h : s.flushWorkflow (.update loaded current dbNow) = .ok s') :
    s.Puts s' (Workflow.writeBack dbNow loaded current loaded) := by
  simp only [Store.flushWorkflow, stored] at h
  split at h
  · cases h
  · cases h
    refine ⟨fun id => ?_, rfl⟩
    rw [Table.find?_modify, Workflow.writeBack_id]
    by_cases own : loaded.id = id
    · subst own
      rw [if_pos rfl, if_pos rfl, stored]
      rfl
    · rw [if_neg own, if_neg fun same => own same.symm]

theorem createWorkflow_outcome (s : Store) (clk : Clock) (req : WorkflowCreate) :
    WorkflowOutcome s (.create clk req) ((WorkflowCall.create clk req).exec s).1
      ((WorkflowCall.create clk req).exec s).2 := by
  simp only [WorkflowCall.exec, WorkflowCall.program, createWorkflow]
  cases valid : req.validate with
  | error e => exact .refused _ _
  | ok _ =>
      cases stored : s.workflows.find? req.workflowId with
      | some existing =>
          simp only [Catalog.check, Catalog.get, Prog.run_bind, Prog.run, Prog.pure_eq, stored]
          by_cases own : existing.ownerAgentId = req.ownerAgentId
          · simp only [own, ne_eq, not_true_eq_false, if_false, Prog.run]
            exact .found clk req existing stored own
          · simp only [own, ne_eq, not_false_eq_true, if_true, Catalog.raise, Prog.raise, Prog.run]
            exact .refused _ _
      | none =>
          simp only [Catalog.check, Catalog.get, Catalog.commit, Catalog.refresh, Prog.run_bind,
            Prog.run, Prog.pure_eq, stored]
          cases inserted : s.flushWorkflow (.insert (req.row clk)) with
          | error e => exact .refused _ _
          | ok s' =>
              have puts := flushWorkflow_insert inserted
              have read := puts.row (req.row clk).id
              rw [if_pos rfl] at read
              simp only [read, Option.getD_some]
              exact .created clk req s' valid stored puts

theorem updateWorkflow_outcome (s : Store) (clk : Clock) (req : WorkflowUpdate) :
    WorkflowOutcome s (.update clk req) ((WorkflowCall.update clk req).exec s).1
      ((WorkflowCall.update clk req).exec s).2 := by
  simp only [WorkflowCall.exec, WorkflowCall.program, updateWorkflow]
  cases stored : s.workflows.find? req.workflowId with
  | none =>
      simp only [Catalog.get, Catalog.raise, Prog.raise, Prog.run_bind, Prog.run, Prog.pure_eq, stored]
      exact .refused _ _
  | some loaded =>
      simp only [Catalog.get, Prog.run_bind, Prog.run, Prog.pure_eq, stored]
      by_cases own : loaded.ownerAgentId = req.callerAgentId
      · simp only [own, ne_eq, not_true_eq_false, if_false, Prog.run_bind]
        cases assigned : req.assign clk loaded with
        | error e => exact .refused _ _
        | ok current =>
            simp only [Catalog.check, Catalog.get, Catalog.commit, Catalog.refresh, Prog.run_bind,
              Prog.run, Prog.pure_eq]
            obtain ⟨fields, input, output⟩ := WorkflowUpdate.assign_ok assigned
            have held : s.workflows.find? loaded.id = some loaded := by
              rw [(Table.find?_eq_some.mp stored).2]
              exact stored
            cases committed : s.flushWorkflow (.update loaded current clk.dbNow) with
            | error e => exact .refused _ _
            | ok s' =>
                have puts := flushWorkflow_update held committed
                have read := puts.row loaded.id
                rw [Workflow.writeBack_id, if_pos rfl] at read
                simp only [fields.id, read, Option.getD_some]
                exact .updated clk req loaded _ s' stored own fields.writeBack
                  (jsonColumn_typed input) (jsonColumn_typed output) puts
      · simp only [own, ne_eq, not_false_eq_true, if_true, Catalog.raise, Prog.raise, Prog.run]
        exact .refused _ _

theorem WorkflowCall.exec_outcome (c : WorkflowCall) (s : Store) :
    WorkflowOutcome s c (c.exec s).1 (c.exec s).2 := by
  cases c with
  | create clk req => exact createWorkflow_outcome s clk req
  | update clk req => exact updateWorkflow_outcome s clk req

/-! ## What holds whatever is called next -/

/-- The workflows of a store and the calls that may follow. -/
structure Store.Governed (s : Store) : Prop where
  typed : ∀ id w, s.workflows.find? id = some w → Typed w.inputSchema ∧ Typed w.outputSchema
  owned : ∀ steps id w, s.workflows.find? id = some w →
    ∃ w', (catalogued s steps).workflows.find? id = some w' ∧ w'.id = w.id ∧
      w'.ownerAgentId = w.ownerAgentId
  byOwner : ∀ (a : CatalogStep) id w w', s.workflows.find? id = some w →
    (a.exec s).workflows.find? id = some w' → w' ≠ w →
    ∃ clk req, a = .call (.update clk req) ∧ req.workflowId = id ∧
      req.callerAgentId = w.ownerAgentId ∧ (req.Assigned AsProvided clk w w' ↔ req.Distinguishes w)
  exactly : ∀ clk (req : WorkflowUpdate) answer, ((WorkflowCall.update clk req).exec s).1 = .ok answer →
    ∃ w, s.workflows.find? req.workflowId = some w ∧ w.ownerAgentId = req.callerAgentId ∧
      (req.Assigned AsProvided clk w answer ↔ req.Distinguishes w) ∧
      s.Puts ((WorkflowCall.update clk req).exec s).2 answer
  raised : ∀ (c : WorkflowCall) e, (c.exec s).1 = .error e → (c.exec s).2 = s
  again : ∀ clk (req : WorkflowCreate) w, s.workflows.find? req.workflowId = some w →
    (WorkflowCall.create clk req).exec s = (match req.validate with
      | .error e => .error (.raised e)
      | .ok () => if w.ownerAgentId = req.ownerAgentId then .ok w
          else .error (.raised (.api (workflowTaken req.workflowId))), s)

variable {s : Store}

theorem WorkflowCall.raised {c : WorkflowCall} {e : CatalogFailure} (h : (c.exec s).1 = .error e) :
    (c.exec s).2 = s := by
  have outcome := c.exec_outcome s
  generalize c.exec s = r at *
  obtain ⟨answer, s'⟩ := r
  cases outcome with
  | refused _ _ => rfl
  | found _ _ _ _ _ => rfl
  | created _ _ _ _ _ _ => cases h
  | updated _ _ _ _ _ _ _ _ _ _ _ => cases h

theorem WorkflowCall.updated {clk : Clock} {req : WorkflowUpdate} {answer : Workflow}
    (h : ((WorkflowCall.update clk req).exec s).1 = .ok answer) :
    ∃ w, s.workflows.find? req.workflowId = some w ∧ w.ownerAgentId = req.callerAgentId ∧
      req.Assigned AsWritten clk w answer ∧ s.Puts ((WorkflowCall.update clk req).exec s).2 answer := by
  have outcome := (WorkflowCall.update clk req).exec_outcome s
  generalize (WorkflowCall.update clk req).exec s = r at *
  obtain ⟨result, s'⟩ := r
  cases outcome with
  | refused _ _ => cases h
  | updated _ _ loaded written _ stored own assigned _ _ puts =>
      cases h
      exact ⟨loaded, stored, own, assigned, puts⟩

theorem WorkflowCall.again {clk : Clock} {req : WorkflowCreate} {w : Workflow}
    (stored : s.workflows.find? req.workflowId = some w) :
    (WorkflowCall.create clk req).exec s = (match req.validate with
      | .error e => .error (.raised e)
      | .ok () => if w.ownerAgentId = req.ownerAgentId then .ok w
          else .error (.raised (.api (workflowTaken req.workflowId))), s) := by
  simp only [WorkflowCall.exec, WorkflowCall.program, createWorkflow]
  cases req.validate with
  | error e => rfl
  | ok _ =>
      simp only [Catalog.check, Catalog.get, Prog.run_bind, Prog.run, Prog.pure_eq, stored]
      by_cases own : w.ownerAgentId = req.ownerAgentId
      · simp only [own, ne_eq, not_true_eq_false, if_false, if_true, Prog.run]
      · simp only [own, ne_eq, not_false_eq_true, if_true, if_false, Catalog.raise, Prog.raise, Prog.run]

theorem CatalogStep.exec_row (a : CatalogStep) {id : String} {w : Workflow}
    (stored : s.workflows.find? id = some w) :
    (a.exec s).workflows.find? id = some w ∨
      ∃ clk req w', a = .call (.update clk req) ∧ req.workflowId = id ∧
        req.callerAgentId = w.ownerAgentId ∧ req.Assigned AsWritten clk w w' ∧
        (a.exec s).workflows.find? id = some w' := by
  cases a with
  | others agents tasks events => exact .inl stored
  | call c =>
      have outcome := c.exec_outcome s
      simp only [CatalogStep.exec]
      generalize c.exec s = r at *
      obtain ⟨answer, s'⟩ := r
      cases outcome with
      | refused _ _ => exact .inl stored
      | found _ _ _ _ _ => exact .inl stored
      | created clk req _ _ absent puts =>
          refine .inl ((puts.row id).trans ?_)
          rw [if_neg, stored]
          intro same
          rw [show req.workflowId = id from same, stored] at absent
          cases absent
      | updated clk req loaded written _ found own assigned _ _ puts =>
          have row := puts.row id
          have key : written.id = req.workflowId :=
            assigned.id.trans (Table.find?_eq_some.mp found).2
          by_cases same : req.workflowId = id
          · subst same
            rw [stored] at found
            cases found
            rw [if_pos key] at row
            exact .inr ⟨clk, req, written, rfl, rfl, own.symm, assigned, row⟩
          · rw [if_neg (key ▸ same), stored] at row
            exact .inl row

theorem CatalogStep.exec_keeps {P : Workflow → Prop}
    (created : ∀ clk (req : WorkflowCreate), req.validate = .ok () → P (req.row clk))
    (updated : ∀ clk (req : WorkflowUpdate) loaded written, req.Assigned AsWritten clk loaded written →
      (Typed loaded.inputSchema → Typed written.inputSchema) →
      (Typed loaded.outputSchema → Typed written.outputSchema) → P loaded → P written)
    (a : CatalogStep) (h : ∀ id w, s.workflows.find? id = some w → P w) {id : String} {w : Workflow}
    (found : (a.exec s).workflows.find? id = some w) : P w := by
  cases a with
  | others agents tasks events => exact h id w found
  | call c =>
      have outcome := c.exec_outcome s
      simp only [CatalogStep.exec] at found
      generalize c.exec s = r at *
      obtain ⟨answer, s'⟩ := r
      cases outcome with
      | refused _ _ => exact h id w found
      | found _ _ _ _ _ => exact h id w found
      | created clk req _ valid absent puts =>
          rw [puts.row] at found
          split at found
          · cases found
            exact created clk req valid
          · exact h id w found
      | updated clk req loaded written _ stored own assigned input output puts =>
          rw [puts.row] at found
          split at found
          · cases found
            exact updated clk req loaded w assigned input output (h _ _ stored)
          · exact h id w found

def Store.TypedSchemas (s : Store) : Prop :=
  ∀ id w, s.workflows.find? id = some w → Typed w.inputSchema ∧ Typed w.outputSchema

theorem CatalogStep.typed (a : CatalogStep) (h : s.TypedSchemas) : (a.exec s).TypedSchemas := by
  intro id w found
  refine a.exec_keeps (P := fun w => Typed w.inputSchema ∧ Typed w.outputSchema)
    (fun clk req valid => req.validate_typed valid) ?_ h found
  intro clk req loaded written assigned input output before
  exact ⟨input before.1, output before.2⟩

theorem catalogued_typed (h : s.TypedSchemas) (steps : List CatalogStep) :
    (catalogued s steps).TypedSchemas :=
  Machine.run_keeps (M := catalogue) (fun _ a typed => a.typed typed) h steps

theorem catalogued_owned (steps : List CatalogStep) {id : String} {w : Workflow}
    (stored : s.workflows.find? id = some w) :
    ∃ w', (catalogued s steps).workflows.find? id = some w' ∧ w'.id = w.id ∧
      w'.ownerAgentId = w.ownerAgentId := by
  induction steps generalizing s w with
  | nil => exact ⟨w, stored, rfl, rfl⟩
  | cons a steps ih =>
      rcases a.exec_row stored with same | ⟨clk, req, w', -, -, -, assigned, changed⟩
      · exact ih same
      · obtain ⟨last, found, id, owner⟩ := ih changed
        exact ⟨last, found, id.trans assigned.id, owner.trans assigned.owner⟩

/-- After any run of calls on a catalogue that was empty: owners and ids stay, only an
owner's update changes a workflow and as provided, a call that raises changes nothing,
a second registration is answered or refused without effect, and schemas are typed. -/
theorem workflows_governed (empty : s.workflows.rows = []) (steps : List CatalogStep) :
    (catalogued s steps).Governed where
  typed := by
    apply catalogued_typed
    intro id w found
    rw [Table.find?_eq_some, ← Table.mem_rows, empty] at found
    cases found.1
  owned later _ _ stored := catalogued_owned later stored
  byOwner a id w w' stored after differs := by
    rcases a.exec_row stored with same | ⟨clk, req, written, call, target, caller, assigned, changed⟩
    · rw [same] at after
      exact absurd (Option.some.inj after).symm differs
    · rw [changed] at after
      cases after
      exact ⟨clk, req, call, target, caller, assigned.iff_distinguishes⟩
  exactly clk req answer answered := by
    obtain ⟨w, stored, own, assigned, puts⟩ := WorkflowCall.updated answered
    exact ⟨w, stored, own, assigned.iff_distinguishes, puts⟩
  raised _ _ refused := WorkflowCall.raised refused
  again _ _ _ stored := WorkflowCall.again stored

namespace Demo

def agentsOnly : Store := { store with workflows := .empty }

def registering : List CatalogStep := [
  .call (.create (at' 0) { workflowId := "wf", ownerAgentId := "executor", name := "first" }),
  .call (.update (at' 1) { workflowId := "wf", callerAgentId := "executor", name := some "second",
                           providedFields := some ["name", "status"] })]

end Demo

theorem workflows_governed_registered :
    Demo.agentsOnly.workflows.rows = [] ∧ (catalogued Demo.agentsOnly Demo.registering).Governed :=
  ⟨rfl, workflows_governed rfl Demo.registering⟩

/-- The update renames the workflow; a null status leaves it. -/
example : ((catalogued Demo.agentsOnly Demo.registering).workflows.find? "wf").map
    (fun w => (w.name, w.status, w.updatedAt)) = some ("second", .active, some 1000000) := by decide

namespace Demo

def constant (value : Json) : Dict := [("type", .str "integer"), ("const", value)]

def counting : List CatalogStep := [
  .call (.create (at' 0) { workflowId := "wf", ownerAgentId := "executor", name := "first",
                           inputSchema := .obj (constant (.num 1)) })]

/-- The owner puts the truth value for the number. -/
def retype : WorkflowUpdate where
  workflowId := "wf"
  callerAgentId := "executor"
  inputSchema := .obj (constant (.bool true))
  providedFields := some ["input_schema"]

end Demo

/-- The provided schema is equal to the stored one for Python, and is not stored. -/
theorem equal_schema_not_stored :
    ∃ answer, ((WorkflowCall.update (Demo.at' 1) Demo.retype).exec (catalogued Demo.agentsOnly Demo.counting)).1 =
        .ok answer ∧ answer.inputSchema = some (Demo.constant (.num 1)) ∧
      ∀ w, ¬ Demo.retype.Assigned AsProvided (Demo.at' 1) w answer := by
  obtain ⟨answer, answered, kept⟩ : ∃ answer,
      ((WorkflowCall.update (Demo.at' 1) Demo.retype).exec (catalogued Demo.agentsOnly Demo.counting)).1 = .ok answer ∧
        answer.inputSchema = some (Demo.constant (.num 1)) := ⟨_, rfl, by decide +kernel⟩
  refine ⟨answer, answered, kept, fun w assigned => ?_⟩
  have same := assigned.inputSchema
  rw [if_pos (by decide), kept] at same
  have text := Json.text_of_same same
  revert text
  decide

end Fleet.Api
