/- Following the `next` links of a filtered listing. -/
import Fleet.Api.ListRoutes
import Fleet.Api.Pagination

namespace Fleet.Api
open Fleet.Lib Fleet.Lib.Urllib Fleet.Lib.Paging

/-! ## Names in links -/

/-- The characters of the names that the service accepts or makes: a letter, a digit, a
hyphen, and the line break that the pattern of a workflow id lets through at its end. -/
def idChar (c : Char) : Bool := c.isAlphanum || c = '-' || c = '\n'

def PlainId (id : String) : Prop := id ≠ "" ∧ ∀ c ∈ id.toList, idChar c = true

instance (id : String) : Decidable (PlainId id) :=
  decidable_of_iff (id ≠ "" ∧ id.toList.all idChar = true) (by rw [PlainId, List.all_eq_true])

/-- `WORKFLOW_ID_PATTERN.match`: `$` also stands before a final line break. -/
def workflowIdPattern (id : List Char) : Bool :=
  let body := if id.getLast? = some '\n' then id.dropLast else id
  body.head?.any Char.isAlphanum && body.tail.all (fun c => c.isAlphanum || c = '-') && body.length ≤ 128

def validateWorkflowId (workflowId : String) : Except Failure Unit :=
  if workflowId = "" then .error (.api {
    kind := .inputValidation
    code := .invalidInput
    message := "Workflow ID must not be empty."
    suggestion := some "Provide a non-empty workflow ID using alphanumeric characters and hyphens." })
  else if !workflowIdPattern workflowId.toList then .error (.api {
    kind := .inputValidation
    code := .invalidInput
    message := s!"Invalid workflow ID '{workflowId}'. " ++
      "Must be 1-128 characters, alphanumeric and hyphens only, " ++
      "starting with an alphanumeric character."
    suggestion := some "Use a format like 'my-workflow-name' or 'codeReview'." })
  else .ok ()

theorem validateWorkflowId_plain {id : String} (valid : validateWorkflowId id = .ok ()) : PlainId id := by
  unfold validateWorkflowId at valid
  split at valid
  · cases valid
  · rename_i named
    split at valid
    · cases valid
    · rename_i pattern
      refine ⟨named, ?_⟩
      simp only [Bool.not_eq_true', Bool.not_eq_false] at pattern
      simp only [workflowIdPattern, Bool.and_eq_true] at pattern
      obtain ⟨⟨first, rest⟩, _⟩ := pattern
      have body : ∀ c ∈ (if id.toList.getLast? = some '\n' then id.toList.dropLast else id.toList),
          idChar c = true := by
        intro c member
        generalize (if id.toList.getLast? = some '\n' then id.toList.dropLast else id.toList) = l at *
        cases l with
        | nil => cases member
        | cons d l =>
            rcases List.mem_cons.mp member with rfl | later
            · have letter : c.isAlphanum = true := by simpa using first
              simp [idChar, letter]
            · have shown := List.all_eq_true.mp rest c later
              simp only [idChar, shown, Bool.true_or]
      intro c member
      split at body
      · rename_i last
        obtain ⟨front, shape⟩ := List.getLast?_eq_some_iff.mp last
        rw [shape] at member body
        rcases List.mem_append.mp member with inner | final
        · exact body c (by simpa using inner)
        · rw [List.mem_singleton.mp final]
          decide
      · exact body c member

theorem newTaskId_plain {hex : String} (digits : ∀ c ∈ hex.toList, c.isDigit ∨ 'a' ≤ c ∧ c ≤ 'f') :
    PlainId (newTaskId hex) := by
  refine ⟨newTaskId_ne_empty hex, fun c member => ?_⟩
  rw [newTaskId, String.toList_append, List.mem_append] at member
  rcases member with fixed | inner
  · exact List.all_eq_true.mp (show "task-".toList.all idChar = true by decide) c fixed
  · have alphanumeric : c.isAlphanum = true := by
      change ((c.isUpper || c.isLower) || c.isDigit) = true
      rcases digits c inner with digit | letter
      · rw [digit, Bool.or_true]
      · have low : 'a'.val ≤ c.val := letter.1
        have high : c.val ≤ 'f'.val := letter.2
        have lower : c.isLower = true := Bool.and_eq_true_iff.mpr
          ⟨decide_eq_true low, decide_eq_true (UInt32.le_trans high (show 'f'.val ≤ 'z'.val by decide))⟩
        rw [lower, Bool.or_true, Bool.true_or]
    rw [idChar, alphanumeric, Bool.true_or, Bool.true_or]

/-- A store as the service fills it: it makes the names of the tasks and checks those of
the workflows. -/
structure Catalogued extends Snapshot where
  taskIds : ∀ t ∈ store.tasks, PlainId t.id
  workflowIds : ∀ w ∈ store.workflows, PlainId w.id

/-! ## What a link is read as -/

theorem idChar_other {id : String} (plain : PlainId id) {c : Char} (other : idChar c = false) :
    c ∉ id.toList := by
  intro member
  rw [plain.2 c member] at other
  cases other

theorem PlainId.unmarked {id : String} (plain : PlainId id) : ∀ c ∈ id.toList, c ≠ '>' ∧ c ≠ '~' := by
  intro c member
  constructor
  · rintro rfl
    exact idChar_other plain (by decide) member
  · rintro rfl
    exact idChar_other plain (by decide) member

theorem encodeTaskCursor_unmarked {id : String} (plain : PlainId id) (createdAt : Time) :
    ∀ c ∈ (encodeTaskCursor id createdAt).toList, c ∉ ['+', '%', '&'] := by
  have marks : ∀ c ∈ ['-', 'T', ':', '.', '+'], c ≠ '>' ∧ c ≠ '~' :=
    List.all_iff_forall_prop.mp (by decide)
  have written : ∀ c ∈ (DateTime.isoformat createdAt).toList, c ≠ '>' ∧ c ≠ '~' := by
    intro c member
    rcases DateTime.isoformat_chars member with digit | mark
    · constructor
      · rintro rfl
        exact absurd digit (by decide)
      · rintro rfl
        exact absurd digit (by decide)
    · exact marks c mark
  have keys : ∀ c ∈ "id".toList ++ "created_at".toList, c ≠ '>' ∧ c ≠ '~' :=
    List.all_iff_forall_prop.mp (by decide)
  apply Json.encode_record [("id", id), ("created_at", DateTime.isoformat createdAt)]
  intro f member c inside
  simp only [List.mem_cons, List.not_mem_nil, or_false] at member
  rcases member with rfl | rfl
  · rcases List.mem_append.mp inside with key | value
    · exact keys c (List.mem_append_left _ key)
    · exact plain.unmarked c value
  · rcases List.mem_append.mp inside with key | value
    · exact keys c (List.mem_append_right _ key)
    · exact written c value

theorem encodeCursor_unmarked {id : String} (plain : PlainId id) :
    ∀ c ∈ (encodeCursor id).toList, c ∉ ['+', '%', '&'] := by
  have keys : ∀ c ∈ "id".toList, c ≠ '>' ∧ c ≠ '~' := List.all_iff_forall_prop.mp (by decide)
  apply Json.encode_record [("id", id)]
  intro f member c inside
  rw [List.mem_singleton.mp member] at inside
  rcases List.mem_append.mp inside with key | value
  · exact keys c key
  · exact plain.unmarked c value

theorem parseQsl_next (fw : Framework) {cursor : String}
    (unmarked : ∀ c ∈ cursor.toList, c ∉ ['+', '%', '&']) (limit : PageLimit) :
    parseQsl fw.percent ("cursor=".toList ++ cursor.toList ++ "&limit=".toList ++ (toString limit.size).toList) =
      [("cursor", cursor), ("limit", toString limit.size)] := by
  have digits : ∀ c ∈ (toString limit.size).toList, c ∉ ['+', '%', '&'] := by
    intro c member
    have digit : c.isDigit = true := by
      rw [show toString limit.size = Nat.repr limit.size from rfl, Nat.toList_repr] at member
      exact Nat.isDigit_of_mem_toDigits (by decide) (by decide) member
    have apart : ∀ d ∈ ['+', '%', '&'], d.isDigit = false := List.all_iff_forall_prop.mp (by decide)
    intro marked
    rw [apart c marked] at digit
    cases digit
  have shape : "cursor=".toList ++ cursor.toList ++ "&limit=".toList ++ (toString limit.size).toList =
      "cursor".toList ++ '=' :: cursor.toList ++
        '&' :: ("limit".toList ++ '=' :: (toString limit.size).toList) := by
    simp
  have names : ∀ c ∈ "cursor".toList ++ "limit".toList, c ∉ ['+', '%', '&'] :=
    List.all_iff_forall_prop.mp (by decide)
  rw [shape, parseQsl_cons, parseQsl_single]
  · rw [String.ofList_toList, String.ofList_toList, String.ofList_toList, String.ofList_toList]
  · decide
  · intro c member
    rcases List.mem_append.mp member with name | value
    · exact names c (List.mem_append_right _ name)
    · exact digits c value
  · decide
  · intro c member
    rcases List.mem_append.mp member with name | value
    · exact names c (List.mem_append_left _ name)
    · exact unmarked c value

theorem readLimit_next (fw : Framework) (cursor : String) (limit : PageLimit) :
    readLimit fw [("cursor", cursor), ("limit", toString limit.size)] = some limit := by
  have text : param [("cursor", cursor), ("limit", toString limit.size)] "limit" = some (toString limit.size) := rfl
  have range : (1 : Int) ≤ limit.size ∧ (limit.size : Int) ≤ 100 := by
    have := limit.least
    have := limit.most
    omega
  unfold readLimit
  rw [text]
  simp only [Option.map_some, fw.readInt_decimal]
  rw [dif_pos range]
  congr 1

def tasksPath (workflowId : String) : String := "/workflows/" ++ workflowId ++ "/tasks"

theorem tasksPath_split {id : String} (plain : PlainId id) :
    (tasksPath id).toList.splitOn '/' = [[], "workflows".toList, id.toList, "tasks".toList] := by
  have shape : (tasksPath id).toList =
      [] ++ '/' :: ("workflows".toList ++ '/' :: (id.toList ++ '/' :: "tasks".toList)) := by
    simp [tasksPath, String.toList_append]
  rw [shape, List.splitOn_append_cons_self_of_not_mem (by simp),
    List.splitOn_append_cons_self_of_not_mem (by decide),
    List.splitOn_append_cons_self_of_not_mem (idChar_other plain (by decide)),
    List.splitOn_eq_singleton (by decide)]

theorem route?_tasksPath {id : String} (plain : PlainId id) :
    route? "GET" (tasksPath id) = some .listTasks := by
  have ending : (tasksPath id).toList = ("/workflows/" ++ id ++ "/task").toList ++ ['s'] := by
    simp [tasksPath, String.toList_append]
  have last : (tasksPath id).toList.getLast? ≠ some '\n' := by
    rw [ending, List.getLast?_concat]
    decide
  have matched : ∀ r : Route, pathMatches r.path (tasksPath id) = segmentsMatch (r.path.toList.splitOn '/')
      [[], "workflows".toList, id.toList, "tasks".toList] := by
    intro r
    simp only [pathMatches, tasksPath_split plain, last, decide_false, Bool.false_and, Bool.or_false]
  obtain ⟨c, rest, shape⟩ := List.exists_cons_of_ne_nil fun empty =>
    plain.1 (String.toList_eq_nil_iff.mp empty)
  rw [route?]
  simp only [matched, shape]
  rfl

def linkTo (base cursor : String) (limit : PageLimit) : String :=
  s!"{base}?cursor={cursor}&limit={limit.size}"

theorem follow_linkTo (fw : Framework) {base cursor : String} (limit : PageLimit)
    (plain : '?' ∉ base.toList ∧ '%' ∉ base.toList) :
    follow fw (linkTo base cursor limit) = ⟨base,
      "cursor=".toList ++ cursor.toList ++ "&limit=".toList ++ (toString limit.size).toList⟩ := by
  have shape : (linkTo base cursor limit).toList = base.toList ++ '?' ::
      ("cursor=".toList ++ cursor.toList ++ "&limit=".toList ++ (toString limit.size).toList) := by
    simp [linkTo, String.toList_append, toString]
  rw [follow, shape, splitAt, cut_append plain.1]
  dsimp only [Option.getD_some]
  rw [if_neg plain.2, String.ofList_toList]

/-- The call that a next link of a task list makes: the filters are gone. -/
theorem listCall?_tasks (fw : Framework) {id cursor : String} (plain : PlainId id)
    (unmarked : ∀ c ∈ cursor.toList, c ∉ ['+', '%', '&']) (limit : PageLimit) :
    listCall? fw (follow fw (linkTo (tasksPath id) cursor limit)) =
      some (.tasks id {} limit (some cursor)) := by
  have path : '?' ∉ (tasksPath id).toList ∧ '%' ∉ (tasksPath id).toList := by
    have question := idChar_other plain (c := '?') (by decide)
    have percent := idChar_other plain (c := '%') (by decide)
    simp [tasksPath, String.toList_append, question, percent]
  rw [follow_linkTo fw limit path, listCall?]
  dsimp only
  rw [parseQsl_next fw unmarked, route?_tasksPath plain, readLimit_next, workflowIdOf, tasksPath_split plain]
  simp only [List.getElem?_cons_succ, List.getElem?_cons_zero, Option.getD_some, String.ofList_toList]
  rfl

theorem listCall?_workflows (fw : Framework) {cursor : String}
    (unmarked : ∀ c ∈ cursor.toList, c ∉ ['+', '%', '&']) (limit : PageLimit) :
    listCall? fw (follow fw (linkTo "/workflows" cursor limit)) = some (.workflows {} limit (some cursor)) := by
  have routed : route? "GET" "/workflows" = some .listWorkflows := by decide
  rw [follow_linkTo fw limit (by decide), listCall?]
  dsimp only
  rw [parseQsl_next fw unmarked, routed, readLimit_next]
  rfl

end Fleet.Api
