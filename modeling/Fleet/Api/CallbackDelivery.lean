/- The callback that reports a task's result, and the string its receiver verifies. -/
import Fleet.Lib.Urllib
import Fleet.Api.Auth
import Fleet.Api.Responses
import Fleet.Lib.JsonText

namespace Fleet.Api
open Fleet.Lib

/-! ## The server's signature -/

def callbackSigningString (C : Crypto) (method path timestamp : String) (body : Bytes) : Bytes :=
  let bodyHash := C.sha256 body
  utf8 s!"{method}\n{path}\n{timestamp}\n{bodyHash}"

def signCallback (C : Crypto) (privateKey : C.PrivateKey) (method path timestamp : String)
    (body : Bytes) : String :=
  Base64.b64encode (C.sign privateKey (callbackSigningString C method path timestamp body))

/-! ## The HTTP client -/

/-- The path and the query of a request line. -/
structure Target where
  path : List Char
  query : List Char

/-- The path including its query, as the request-signing rule reads it. -/
def Target.text (t : Target) : List Char := if t.query = [] then t.path else t.path ++ '?' :: t.query

/-- The HTTP client, a library: the request line it sends for a URL, unless it refuses
the URL, and how it writes a path there. -/
structure HttpClient where
  target : String → Option Target
  encodePath : List Char → List Char

/-- What the client is documented to do: it sends HTTP URLs only, the path normalised and
escaped, the query where the URL has one; a semicolon is not escaped. -/
structure HttpClient.Documented (client : HttpClient) : Prop where
  scheme : ∀ {url t}, client.target url = some t →
    String.ofList (Urllib.urlsplit url).scheme ∈ ["http", "https"]
  path : ∀ {url t}, client.target url = some t → t.path = client.encodePath (Urllib.urlsplit url).path
  query : ∀ {url t}, client.target url = some t → (t.query = [] ↔ (Urllib.urlsplit url).query = [])
  semicolon : ∀ path, ';' ∈ Urllib.lastSegment path → ';' ∈ Urllib.lastSegment (client.encodePath path)

/-! ## Delivery -/

def buildCallbackPayload (task : Task) : Json := .obj [
  ("task_id", .str task.id),
  ("workflow_id", .str task.workflowId),
  ("status", .str task.status.value),
  ("result", task.result),
  ("completed_at", match task.completedAt with
    | some at' => .str (DateTime.isoformat at')
    | none => .null)]

structure CallbackPost where
  method : String
  target : Target
  contentType : String
  signature : String
  timestamp : String
  keyId : String
  body : Bytes

def retryDelays : List Nat := [1, 2, 4]

def maxAttempts : Nat := retryDelays.length + 1

/-- The posts of the remaining attempts, and whether one was answered with success. Each
attempt ends with a status or with an exception; a post that is never sent is an
exception too. -/
def attempts (post : Option CallbackPost) (reply : Nat → Option Nat) : Nat → Nat → List CallbackPost × Bool
  | _, 0 => ([], false)
  | attempt, left + 1 =>
      match post with
      | none => attempts post reply (attempt + 1) left
      | some sent =>
          if (reply attempt).any (fun status => 200 ≤ status ∧ status < 300) then ([sent], true)
          else
            let (later, delivered) := attempts post reply (attempt + 1) left
            (sent :: later, delivered)

def orRoot (path : List Char) : List Char := if path = [] then ['/'] else path

/-- The path that is signed: the parsed path of the URL, or the root. -/
def callbackPath (url : String) : String := String.ofList (orRoot (Urllib.parsedPath url))

def callbackBody (task : Task) : Bytes := utf8 (buildCallbackPayload task).dumpsPlain

/-- What is signed for a callback to the URL. -/
def signedString (C : Crypto) (now : Time) (task : Task) (url : String) : Bytes :=
  callbackSigningString C "POST" (callbackPath url) (DateTime.isoformat now) (callbackBody task)

def callbackPost (C : Crypto) (privateKey : C.PrivateKey) (now : Time) (task : Task) (url : String)
    (target : Target) : CallbackPost where
  method := "POST"
  target := target
  contentType := "application/json"
  signature := signCallback C privateKey "POST" (callbackPath url) (DateTime.isoformat now)
    (callbackBody task)
  timestamp := DateTime.isoformat now
  keyId := "fleet-api"
  body := callbackBody task

/-- The posts that reach the network. `urlparse` raises where the network location of the
URL is not valid (`locates`), before anything is signed. -/
def deliverCallback (C : Crypto) (client : HttpClient) (locates : String → Bool)
    (privateKey : C.PrivateKey) (now : Time) (task : Task) (reply : Nat → Option Nat) :
    List CallbackPost × Bool :=
  match task.callbackUrl with
  | none => ([], true)
  | some url =>
      if !locates url then ([], false)
      else attempts ((client.target url).map (callbackPost C privateKey now task url)) reply 0 maxAttempts

/-- The string that a receiver puts together from the post. -/
def rebuilt (C : Crypto) (post : CallbackPost) : Bytes :=
  buildSigningString C post.method (String.ofList post.target.text) post.timestamp post.body

/-! ## What the receiver rebuilds -/

theorem attempts_posts (post : Option CallbackPost) (reply : Nat → Option Nat) (attempt left : Nat) :
    (∀ p ∈ (attempts post reply attempt left).1, post = some p) ∧
      ∀ p, post = some p → left ≠ 0 → p ∈ (attempts post reply attempt left).1 := by
  induction left generalizing attempt with
  | zero => simp [attempts]
  | succ left ih =>
      cases post with
      | none => exact ⟨(ih (attempt + 1)).1, by simp⟩
      | some sent =>
          unfold attempts
          dsimp only
          split
          · simp
          · obtain ⟨same, _⟩ := ih (attempt + 1)
            refine ⟨?_, ?_⟩
            · intro p member
              rcases List.mem_cons.mp member with rfl | later
              · rfl
              · exact same p later
            · rintro p ⟨⟩ _
              exact List.mem_cons_self

/-- The URL is one whose request line is the path that is signed: it has no query, its
last segment has no semicolon, and the client sends its path as it is written. -/
def SentAsSigned (client : HttpClient) (url : String) : Prop :=
  (Urllib.urlsplit url).query = [] ∧ ';' ∉ Urllib.lastSegment (Urllib.urlsplit url).path ∧
    client.encodePath (Urllib.urlsplit url).path = orRoot (Urllib.urlsplit url).path

instance (client : HttpClient) (url : String) : Decidable (SentAsSigned client url) := instDecidableAnd

theorem parsedPath_sent {client : HttpClient} (documented : client.Documented) {url : String}
    {t : Target} (sent : client.target url = some t) :
    Urllib.parsedPath url = Urllib.withoutParams (Urllib.urlsplit url).path := by
  have web : ∀ s ∈ ["http", "https"], s ∈ Urllib.usesParams := by decide
  exact if_pos (web _ (documented.scheme sent))

theorem lastSegment_orRoot (path : List Char) :
    ';' ∉ Urllib.lastSegment (orRoot (Urllib.withoutParams path)) := by
  unfold orRoot
  split
  · decide
  · exact Urllib.lastSegment_withoutParams path

theorem target_eq_callbackPath {client : HttpClient} (documented : client.Documented) {url : String}
    {t : Target} (sent : client.target url = some t) :
    t.text = orRoot (Urllib.parsedPath url) ↔ SentAsSigned client url := by
  rw [parsedPath_sent documented sent, Target.text, documented.path sent, SentAsSigned,
    ← documented.query sent]
  by_cases plain : t.query = []
  · rw [if_pos plain]
    constructor
    · intro same
      have whole : ';' ∉ Urllib.lastSegment (Urllib.urlsplit url).path := by
        intro member
        have kept := documented.semicolon _ member
        rw [same] at kept
        exact lastSegment_orRoot _ kept
      rw [Urllib.withoutParams_eq whole] at same
      exact ⟨plain, whole, same⟩
    · rintro ⟨_, whole, same⟩
      rw [Urllib.withoutParams_eq whole]
      exact same
  · rw [if_neg plain]
    constructor
    · intro same
      have mark : '?' ∈ orRoot (Urllib.withoutParams (Urllib.urlsplit url).path) := by
        rw [← same]
        simp
      unfold orRoot at mark
      split at mark
      · simp at mark
      · exact absurd (Urllib.withoutParams_subset _ _ mark) (Urllib.path_plain url)
    · rintro ⟨empty, _⟩
      exact absurd empty plain

theorem rebuilt_post (C : Crypto) (privateKey : C.PrivateKey) (now : Time) (task : Task)
    (url : String) (t : Target) :
    rebuilt C (callbackPost C privateKey now task url t) = signedString C now task url ↔
      t.text = orRoot (Urllib.parsedPath url) := by
  unfold rebuilt signedString buildSigningString callbackSigningString callbackPost callbackPath
  dsimp only
  rw [utf8_inj, ← String.toList_inj]
  simp only [toString, String.toList_append, List.append_assoc, List.append_cancel_left_eq,
    String.toList_ofList]
  exact ⟨List.append_cancel_right, fun same => by rw [same]⟩

section delivery
variable {C : Crypto} {client : HttpClient} {locates : String → Bool} {privateKey : C.PrivateKey}
  {now : Time} {task : Task} {reply : Nat → Option Nat} {url : String}

theorem mem_deliverCallback (given : task.callbackUrl = some url) {post : CallbackPost} :
    post ∈ (deliverCallback C client locates privateKey now task reply).1 ↔
      locates url = true ∧ ∃ t, client.target url = some t ∧
        post = callbackPost C privateKey now task url t := by
  simp only [deliverCallback, given]
  cases located : locates url with
  | false => simp
  | true =>
      obtain ⟨same, first⟩ := attempts_posts
        ((client.target url).map (callbackPost C privateKey now task url)) reply 0 maxAttempts
      constructor
      · intro member
        obtain ⟨t, sent, rfl⟩ := Option.map_eq_some_iff.mp (same post member)
        exact ⟨rfl, t, sent, rfl⟩
      · rintro ⟨_, t, sent, rfl⟩
        exact first _ (by rw [sent]; rfl) (by decide)

/-- A receiver that holds the server's key accepts the signature of a post exactly when it
rebuilds what was signed. -/
theorem callback_verifies (ideal : C.Ideal) (given : task.callbackUrl = some url) {post : CallbackPost}
    (made : post ∈ (deliverCallback C client locates privateKey now task reply).1) :
    ∃ signature, Base64.b64decode post.signature = .ok signature ∧
      (C.verify (C.publicKey privateKey) signature (rebuilt C post) = true ↔
        rebuilt C post = signedString C now task url) := by
  obtain ⟨_, t, _, rfl⟩ := (mem_deliverCallback given).mp made
  exact ⟨_, Base64.b64decode_b64encode _, ideal.verify_iff privateKey _ _⟩

end delivery

/-- The receiver of a callback rebuilds the string that was signed, on every attempt,
exactly where the client does not send the URL at all or sends as its request line the
path that was signed. -/
theorem callback_rebuilt (C : Crypto) (client : HttpClient) (documented : client.Documented)
    (locates : String → Bool) (privateKey : C.PrivateKey) (now : Time) (task : Task)
    (reply : Nat → Option Nat) (url : String) (given : task.callbackUrl = some url) :
    (∀ post ∈ (deliverCallback C client locates privateKey now task reply).1,
      rebuilt C post = signedString C now task url) ↔
      (locates url = false ∨ client.target url = none ∨ SentAsSigned client url) := by
  simp only [mem_deliverCallback given]
  constructor
  · intro all
    cases located : locates url with
    | false => exact .inl rfl
    | true =>
        cases sent : client.target url with
        | none => exact .inr (.inl rfl)
        | some t =>
            have same := (rebuilt_post C privateKey now task url t).mp (all _ ⟨located, t, sent, rfl⟩)
            exact .inr (.inr ((target_eq_callbackPath documented sent).mp same))
  · rintro condition post ⟨located, t, sent, rfl⟩
    rw [rebuilt_post, target_eq_callbackPath documented sent]
    rcases condition with absent | absent | asSigned
    · rw [located] at absent
      cases absent
    · rw [sent] at absent
      cases absent
    · exact asSigned

/-! ### Two URLs -/

namespace Demo

def serverKey : crypto.PrivateKey := ()

/-- A client on two URLs of one agent, where it does what HTTP clients do. -/
def client : HttpClient where
  target url :=
    if url = "https://agent.example.com/callback" then some ⟨"/callback".toList, []⟩
    else if url = "https://agent.example.com/callback?task=1" then
      some ⟨"/callback".toList, "task=1".toList⟩
    else none
  encodePath := orRoot

theorem client_documented : client.Documented where
  scheme {url t} sent := by
    simp only [client] at sent
    split_ifs at sent with plain query
    · rw [plain]
      decide
    · rw [query]
      decide
  path {url t} sent := by
    simp only [client] at sent ⊢
    split_ifs at sent with plain query
    · cases sent
      rw [plain]
      decide
    · cases sent
      rw [query]
      decide
  query {url t} sent := by
    simp only [client] at sent
    split_ifs at sent with plain query
    · cases sent
      rw [plain]
      decide
    · cases sent
      rw [query]
      decide
  semicolon path member := by
    change ';' ∈ Urllib.lastSegment (orRoot path)
    unfold orRoot
    split
    · rename_i empty
      rw [empty] at member
      cases member
    · exact member

def reported (url : String) : Task where
  id := "task-a"
  workflowId := "wf"
  principalAgentId := "principal"
  executorAgentId := some "executor"
  status := .completed
  input := []
  result := .str "done"
  priority := .normal
  timeoutSeconds := none
  parentTaskId := none
  rootTaskId := none
  lineageDepth := 0
  delegationDepth := 0
  callbackUrl := some url
  idempotencyKey := none
  createdAt := 0
  startedAt := some 1000000
  completedAt := some 2000000
  pausedAt := none
  metadata := none

end Demo

theorem callback_rebuilt_plain :
    SentAsSigned Demo.client "https://agent.example.com/callback" ∧
    ∀ post ∈ (deliverCallback Demo.crypto Demo.client (fun _ => true) Demo.serverKey 3000000
        (Demo.reported "https://agent.example.com/callback") (fun _ => some 200)).1,
      rebuilt Demo.crypto post = signedString Demo.crypto 3000000
        (Demo.reported "https://agent.example.com/callback") "https://agent.example.com/callback" :=
  have asSigned : SentAsSigned Demo.client "https://agent.example.com/callback" := by decide
  ⟨asSigned, (callback_rebuilt Demo.crypto Demo.client Demo.client_documented (fun _ => true) Demo.serverKey
    3000000 (Demo.reported "https://agent.example.com/callback") (fun _ => some 200)
    "https://agent.example.com/callback" rfl).mpr (.inr (.inr asSigned))⟩

/-- The query is on the request line, and not in what is signed. -/
theorem callback_query_unsigned :
    ∃ post ∈ (deliverCallback Demo.crypto Demo.client (fun _ => true) Demo.serverKey 3000000
        (Demo.reported "https://agent.example.com/callback?task=1") (fun _ => some 200)).1,
      rebuilt Demo.crypto post ≠ signedString Demo.crypto 3000000
        (Demo.reported "https://agent.example.com/callback?task=1")
        "https://agent.example.com/callback?task=1" := by
  refine ⟨_, (mem_deliverCallback rfl).mpr ⟨rfl, _, rfl, rfl⟩, ?_⟩
  rw [ne_eq, rebuilt_post]
  decide

end Fleet.Api
