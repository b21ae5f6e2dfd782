/- The route a request takes, what the parameters of its template are, and why the order
   of the routes does not matter. -/
import Fleet.Lib.Urllib
import Fleet.Api.Routes

namespace Fleet.Api
open Fleet.Lib Fleet.Lib.Urllib

/-! ## Path parameters -/

/-- The parameters of a template by name, each with the segment it takes. -/
def paramsOf : List (List Char) → List (List Char) → List (String × String)
  | template :: templates, segment :: segments =>
      if template.head? = some '\x7b' then
        (String.ofList template.tail.dropLast, String.ofList segment) :: paramsOf templates segments
      else paramsOf templates segments
  | _, _ => []

/-- The groups of the match; the line break that `$` stands before is in none of them. -/
def pathParams (template path : String) : List (String × String) :=
  let parts := template.toList.splitOn '/'
  if segmentsMatch parts (path.toList.splitOn '/') then paramsOf parts (path.toList.splitOn '/')
  else paramsOf parts (path.toList.dropLast.splitOn '/')

/-- The first route of a table that matches both the path and the method. -/
def routeIn (table : List Route) (method path : String) : Option Route :=
  (table.filter fun r => pathMatches r.path path).find? fun r => method ∈ r.methods

def resolve (method path : String) : Option (Endpoint × List (String × String)) :=
  (routeIn routes method path).map fun r => (r.endpoint, pathParams r.path path)

example : resolve "POST" "/workflows/wf/tasks/task-a/cancel" =
    some (.cancelTaskEndpoint, [("workflow_id", "wf"), ("task_id", "task-a")]) := by decide

theorem resolve_endpoint (method path : String) : (resolve method path).map Prod.fst = route? method path := by
  rw [resolve, Option.map_map]
  rfl

/-! ## Templates that match one path -/

section templates

/-- A template takes the segment, or what is left of it without a line break at its end. -/
def Takes (template segment : List Char) : Prop :=
  template.head? = some '\x7b' ∨ segment = template ∨ segment = template ++ ['\n']

/-- Some segment is taken by both, as far as their texts tell. -/
def meets (template other : List Char) : Bool :=
  template.head? = some '\x7b' || other.head? = some '\x7b' || template = other

def templatesMeet : List (List Char) → List (List Char) → Bool
  | [], [] => true
  | template :: templates, other :: others => meets template other && templatesMeet templates others
  | _, _ => false

theorem segmentMatches_takes {template segment : List Char} (h : segmentMatches template segment = true) :
    Takes template segment := by
  unfold segmentMatches at h
  split at h
  · rename_i parameter
    exact .inl parameter
  · exact .inr (.inl (of_decide_eq_true h))

theorem segmentsMatch_takes {templates segments : List (List Char)}
    (h : segmentsMatch templates segments = true) : List.Forall₂ Takes templates segments := by
  induction templates generalizing segments with
  | nil =>
      cases segments with
      | nil => exact .nil
      | cons segment segments => cases h
  | cons template templates ih =>
      cases segments with
      | nil => cases h
      | cons segment segments =>
          obtain ⟨first, rest⟩ := Bool.and_eq_true_iff.mp h
          exact .cons (segmentMatches_takes first) (ih rest)

theorem splitOn_break (path : List Char) : ∃ front last,
    path.splitOn '/' = front ++ [last] ∧ (path ++ ['\n']).splitOn '/' = front ++ [last ++ ['\n']] := by
  suffices split : ∀ (n : Nat) (path : List Char), path.length ≤ n → ∃ front last,
      path.splitOn '/' = front ++ [last] ∧ (path ++ ['\n']).splitOn '/' = front ++ [last ++ ['\n']] from
    split path.length path le_rfl
  intro n
  induction n with
  | zero =>
      intro path short
      obtain rfl := List.eq_nil_of_length_eq_zero (Nat.le_zero.mp short)
      exact ⟨[], [], rfl, by decide⟩
  | succ n ih =>
      intro path short
      cases found : cut '/' path with
      | none =>
          have absent := cut_eq_none.mp found
          refine ⟨[], path, List.splitOn_eq_singleton absent, List.splitOn_eq_singleton ?_⟩
          simpa using absent
      | some halves =>
          obtain ⟨first, rest⟩ := halves
          obtain ⟨absent, rfl⟩ := cut_eq_some.mp found
          obtain ⟨front, last, plain, broken⟩ := ih rest (by
            rw [List.length_append, List.length_cons] at short
            omega)
          refine ⟨first :: front, last, ?_, ?_⟩
          · rw [List.splitOn_append_cons_self_of_not_mem absent, plain, List.cons_append]
          · rw [List.append_assoc, List.cons_append, List.splitOn_append_cons_self_of_not_mem absent, broken,
              List.cons_append]

theorem takes_break {templates front : List (List Char)} {last : List Char}
    (h : segmentsMatch templates (front ++ [last]) = true) :
    List.Forall₂ Takes templates (front ++ [last ++ ['\n']]) := by
  induction front generalizing templates with
  | nil =>
      cases templates with
      | nil => cases h
      | cons template templates =>
          obtain ⟨first, rest⟩ := Bool.and_eq_true_iff.mp h
          refine .cons ?_ (segmentsMatch_takes rest)
          unfold segmentMatches at first
          split at first
          · rename_i parameter
            exact .inl parameter
          · exact .inr (.inr (congrArg (· ++ ['\n']) (of_decide_eq_true first)))
  | cons segment front ih =>
      cases templates with
      | nil => cases h
      | cons template templates =>
          obtain ⟨first, rest⟩ := Bool.and_eq_true_iff.mp h
          exact .cons (segmentMatches_takes first) (ih rest)

theorem pathMatches_takes {template path : String} (h : pathMatches template path = true) :
    List.Forall₂ Takes (template.toList.splitOn '/') (path.toList.splitOn '/') := by
  unfold pathMatches at h
  rcases Bool.or_eq_true_iff.mp h with plain | broken
  · exact segmentsMatch_takes plain
  · obtain ⟨ends, matched⟩ := Bool.and_eq_true_iff.mp broken
    obtain ⟨path', shape⟩ := List.getLast?_eq_some_iff.mp (of_decide_eq_true ends)
    obtain ⟨front, last, whole, split⟩ := splitOn_break path'
    rw [shape, List.dropLast_concat, whole] at matched
    rw [shape, split]
    exact takes_break matched

/-- Two templates without line breaks that take one path agree segment by segment. -/
theorem takes_meet {templates others segments : List (List Char)}
    (unbroken : ∀ t ∈ templates ++ others, '\n' ∉ t) (h : List.Forall₂ Takes templates segments)
    (h' : List.Forall₂ Takes others segments) : templatesMeet templates others = true := by
  induction h generalizing others with
  | nil =>
      cases h'
      rfl
  | @cons template segment templates segments first rest ih =>
      cases h' with
      | @cons other _ others _ first' rest' =>
          have later := @ih others (fun t member => unbroken t (by
            rcases List.mem_append.mp member with own | own <;> simp [own])) rest'
          have plain := unbroken template (by simp)
          have plain' := unbroken other (by simp)
          refine Bool.and_eq_true_iff.mpr ⟨?_, later⟩
          simp only [meets, Bool.or_eq_true, decide_eq_true_eq]
          rcases first with parameter | rfl | rfl
          · exact .inl (.inl parameter)
          · rcases first' with parameter | same | same
            · exact .inl (.inr parameter)
            · exact .inr same
            · rw [same] at plain
              simp at plain
          · rcases first' with parameter | same | same
            · exact .inl (.inr parameter)
            · rw [← same] at plain'
              simp at plain'
            · exact .inr (List.append_cancel_right same)

end templates

/-! ## One route at most -/

/-- Of the table's routes no two that share a method have templates that meet. -/
theorem routes_apart : ∀ r ∈ routes, ∀ r' ∈ routes, (∃ m ∈ r.methods, m ∈ r'.methods) →
    templatesMeet (r.path.toList.splitOn '/') (r'.path.toList.splitOn '/') = true → r = r' := by
  decide +kernel

theorem routes_unbroken : ∀ r ∈ routes, ∀ t ∈ r.path.toList.splitOn '/', '\n' ∉ t := by
  decide +kernel

theorem route_unique {r r' : Route} {method path : String} (member : r ∈ routes) (member' : r' ∈ routes)
    (takes : method ∈ r.methods) (takes' : method ∈ r'.methods) (matched : pathMatches r.path path = true)
    (matched' : pathMatches r'.path path = true) : r = r' := by
  refine routes_apart r member r' member' ⟨method, takes, takes'⟩ ?_
  refine takes_meet (fun t inside => ?_) (pathMatches_takes matched) (pathMatches_takes matched')
  rcases List.mem_append.mp inside with own | own
  · exact routes_unbroken r member t own
  · exact routes_unbroken r' member' t own

theorem routeIn_eq_some {table : List Route} {method path : String} {r : Route}
    (same : table.Perm routes) :
    routeIn table method path = some r ↔
      r ∈ routes ∧ method ∈ r.methods ∧ pathMatches r.path path = true := by
  have sound : ∀ {r}, routeIn table method path = some r →
      r ∈ routes ∧ method ∈ r.methods ∧ pathMatches r.path path = true := by
    intro r found
    obtain ⟨member, matched⟩ := List.mem_filter.mp (List.mem_of_find?_eq_some found)
    exact ⟨same.mem_iff.mp member, by simpa using List.find?_some found, matched⟩
  constructor
  · exact sound
  · rintro ⟨member, takes, matched⟩
    cases found : routeIn table method path with
    | none =>
        have refused := List.find?_eq_none.mp found r
          (List.mem_filter.mpr ⟨same.mem_iff.mpr member, matched⟩)
        exact absurd takes (by simpa using refused)
    | some r' =>
        obtain ⟨member', takes', matched'⟩ := sound found
        rw [route_unique member member' takes takes' matched matched']

/-- However the routers are included, a request has the route it has now: at most one
route takes its method and its path. -/
theorem routing_unambiguous (method path : String) (table : List Route) (same : table.Perm routes) :
    routeIn table method path = routeIn routes method path ∧
      ∀ r, routeIn table method path = some r ↔
        r ∈ routes ∧ method ∈ r.methods ∧ pathMatches r.path path = true := by
  refine ⟨?_, fun r => routeIn_eq_some same⟩
  ext r
  rw [routeIn_eq_some same, routeIn_eq_some (.refl _)]

theorem routing_unambiguous_reversed :
    routeIn routes.reverse "GET" "/agents/register\n" = routeIn routes "GET" "/agents/register\n" ∧
      ∀ r, routeIn routes.reverse "GET" "/agents/register\n" = some r ↔
        r ∈ routes ∧ "GET" ∈ r.methods ∧ pathMatches r.path "/agents/register\n" = true :=
  routing_unambiguous "GET" "/agents/register\n" routes.reverse (List.reverse_perm routes)

/-! ## Paths of plain segments -/

end Fleet.Api
