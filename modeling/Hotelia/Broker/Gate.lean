import Hotelia.Broker.Hub
import Hotelia.Broker.Packet
import Hotelia.Foundation.Answers

/-!
# The gate of the console

Every request to the local server goes through `corsAllowlist`, the body parser and, on the way to
`/stream` and `/packet`, through `requireToken` (`apps/console/src/main/server.ts`). The token is
made once, and kept in a file.

## Main definitions

- `getServerToken` — the token, and the file after it has been asked for
- `requireToken` — whether the credentials of a request are let through
- `LocalApp.step` — a request, or an event of a connection
- `LocalApp.refusal` — the status of a request that is refused

## Main results

- `token_opens`: a token that was handed out at any start is accepted at any other.
- `refused_unseen`: what is refused is answered so, and leaves no trace.
-/

namespace Hotelia.Broker
open Foundation

/-! ## The token -/

/-- A letter of base64url. -/
def base64Letter (n : ℕ) : Char :=
  if n < 26 then Char.ofNat (65 + n)
  else if n < 52 then Char.ofNat (71 + n)
  else if n < 62 then Char.ofNat (n - 4)
  else if n = 62 then '-'
  else '_'

/-- `bytes.toString('base64url')`. -/
def base64url : List (Fin 256) → List Char
  | [] => []
  | [a] => [base64Letter (a / 4), base64Letter (a % 4 * 16)]
  | [a, b] =>
    [base64Letter (a / 4), base64Letter (a % 4 * 16 + b / 16), base64Letter (b % 16 * 4)]
  | a :: b :: c :: rest =>
    base64Letter (a / 4) :: base64Letter (a % 4 * 16 + b / 16) ::
      base64Letter (b % 16 * 4 + c / 64) :: base64Letter (c % 64) :: base64url rest

/-- `readTokenFromDisk()`, given what is in the file. -/
def readTokenFromDisk (file : Option String) : String :=
  match file with
  | none => ""
  | some text => trim text.toList

/-- `getServerToken()`, given what `randomBytes(32)` returns: the token, and the file. -/
def getServerToken (file : Option String) (bytes : List (Fin 256)) : String × Option String :=
  let existing := readTokenFromDisk file
  if existing ≠ "" then (existing, file)
  else (String.ofList (base64url bytes), some (String.ofList (base64url bytes)))

/-- The `Authorization` header, and `req.query.token` if it is one text. -/
structure Credentials where
  authorization : Option String
  queryToken : Option String

/-- `headerToken || queryToken`. -/
def Credentials.provided (c : Credentials) : String :=
  let header := (c.authorization.getD "").toList
  let headerToken := if "Bearer ".toList.isPrefixOf header then String.ofList (header.drop 7) else ""
  if headerToken ≠ "" then headerToken else c.queryToken.getD ""

/-- `requireToken(token)`: the tokens are compared by their digests. -/
def requireToken {δ : Type} [DecidableEq δ] (digest : String → δ) (token : String)
    (c : Credentials) : Bool :=
  c.provided ≠ "" && digest c.provided = digest token

section Token

theorem isSpace_base64Letter (n : ℕ) : isSpace (base64Letter n) = false := by
  by_cases h : n < 64
  · revert n
    decide
  · have hlast : base64Letter n = '_' := by
      rw [base64Letter, if_neg (by omega), if_neg (by omega), if_neg (by omega), if_neg (by omega)]
    rw [hlast]
    decide

theorem isSpace_of_mem_base64url {bytes : List (Fin 256)} :
    ∀ c ∈ base64url bytes, isSpace c = false := by
  fun_induction base64url bytes with
  | case1 => exact fun c hc => absurd hc List.not_mem_nil
  | case2 a => simp [isSpace_base64Letter]
  | case3 a b => simp [isSpace_base64Letter]
  | case4 a b c rest ih =>
    intro d hd
    simp only [List.mem_cons] at hd
    rcases hd with rfl | rfl | rfl | rfl | hd
    · exact isSpace_base64Letter _
    · exact isSpace_base64Letter _
    · exact isSpace_base64Letter _
    · exact isSpace_base64Letter _
    · exact ih d hd

theorem trim_of_no_space {text : List Char} (h : ∀ c ∈ text, isSpace c = false) :
    trim text = String.ofList text := by
  have hkept : ∀ l : List Char, (∀ c ∈ l, isSpace c = false) → l.dropWhile isSpace = l := by
    intro l hl
    cases l with
    | nil => rfl
    | cons c l => exact List.dropWhile_cons_of_neg (by simp [hl c List.mem_cons_self])
  rw [trim, hkept text h, hkept text.reverse (fun c hc => h c (List.mem_reverse.mp hc)),
    List.reverse_reverse]

theorem base64url_ne_nil {bytes : List (Fin 256)} (h : bytes ≠ []) : base64url bytes ≠ [] := by
  match bytes with
  | [] => exact absurd rfl h
  | [a] => simp [base64url]
  | [a, b] => simp [base64url]
  | a :: b :: c :: rest => simp [base64url]

/-- The token is in the file from the first time on. -/
theorem readTokenFromDisk_getServerToken (file : Option String) {bytes : List (Fin 256)}
    (h : bytes ≠ []) :
    readTokenFromDisk (getServerToken file bytes).2 = (getServerToken file bytes).1 ∧
      (getServerToken file bytes).1 ≠ "" := by
  rw [getServerToken]
  by_cases hfile : readTokenFromDisk file = ""
  · have hnot : ¬ readTokenFromDisk file ≠ "" := not_not_intro hfile
    simp only [if_neg hnot]
    refine ⟨?_, fun hempty => base64url_ne_nil h (String.ofList_eq_empty_iff.mp hempty)⟩
    rw [readTokenFromDisk, String.toList_ofList, trim_of_no_space isSpace_of_mem_base64url]
  · simp only [if_pos hfile]
    exact ⟨trivial, hfile⟩

/-- Once there is a token in the file, it is the one that is handed out. -/
theorem getServerToken_of_kept {file : Option String} (h : readTokenFromDisk file ≠ "")
    (bytes : List (Fin 256)) : getServerToken file bytes = (readTokenFromDisk file, file) := by
  rw [getServerToken]
  exact if_pos h

end Token

section Opens

variable {δ : Type} [DecidableEq δ] (digest : String → δ)

/-- The credentials that a device sends with its token. -/
theorem requireToken_bearer {token : String} (h : token ≠ "") (queryToken : Option String) :
    requireToken digest token ⟨some ("Bearer " ++ token), queryToken⟩ = true := by
  have hprefix : "Bearer ".toList.isPrefixOf ("Bearer " ++ token).toList = true := by
    rw [String.toList_append]
    exact List.isPrefixOf_iff_prefix.mpr (List.prefix_append _ _)
  have hdrop : ("Bearer " ++ token).toList.drop 7 = token.toList := by
    rw [String.toList_append]
    rfl
  have hprovided : Credentials.provided ⟨some ("Bearer " ++ token), queryToken⟩ = token := by
    simp only [Credentials.provided, Option.getD_some, hprefix, if_true, hdrop,
      String.ofList_toList]
    exact if_pos h
  rw [requireToken, hprovided]
  simp [h]

/-- Once a token is kept, every start hands it out. -/
theorem eq_of_mem_answers {file : Option String} (hkept : readTokenFromDisk file ≠ "")
    {starts : List (List (Fin 256))} {token : String}
    (h : token ∈ answers getServerToken file starts) : token = readTokenFromDisk file := by
  induction starts with
  | nil => exact absurd h List.not_mem_nil
  | cons bytes starts ih =>
    rw [answers, getServerToken_of_kept hkept] at h
    rcases List.mem_cons.mp h with rfl | hrest
    · rfl
    · exact ih hrest

/-- However often the token is asked for, and whatever is random each time: a token that a device
was given at any start opens the gate of the server at any other start. -/
theorem token_opens (file : Option String) (starts : List (List (Fin 256)))
    (hbytes : ∀ bytes ∈ starts, bytes ≠ []) {token token' : String}
    (h : token ∈ answers getServerToken file starts)
    (h' : token' ∈ answers getServerToken file starts) (queryToken : Option String) :
    requireToken digest token ⟨some ("Bearer " ++ token'), queryToken⟩ = true := by
  cases starts with
  | nil => exact absurd h List.not_mem_nil
  | cons bytes starts =>
    obtain ⟨hread, hne⟩ := readTokenFromDisk_getServerToken file (hbytes bytes List.mem_cons_self)
    -- the first start has made the token, or found it
    have hfirst : ∀ t ∈ answers getServerToken file (bytes :: starts),
        t = (getServerToken file bytes).1 := by
      intro t ht
      rcases List.mem_cons.mp ht with rfl | hrest
      · rfl
      · rw [eq_of_mem_answers (by rwa [hread]) hrest, hread]
    rw [hfirst token h, hfirst token' h']
    exact requireToken_bearer digest hne queryToken

theorem token_opens_twice :
    requireToken id (getServerToken none [0, 1, 255]).1
      ⟨some ("Bearer " ++ (getServerToken (getServerToken none [0, 1, 255]).2 [7]).1), none⟩ =
        true := by
  refine token_opens id none [[0, 1, 255], [7]] (by decide) ?_ ?_ none
  · exact List.mem_cons_self
  · exact List.mem_cons_of_mem _ List.mem_cons_self

end Opens

/-! ## Requests -/

/-- The method that a request is routed by. Express routes `HEAD` as `get`. -/
inductive Method where
  | get | post | options | other
  deriving DecidableEq

/-- The route that a path is for. -/
inductive Route where
  | health | stream | packet | other
  deriving DecidableEq

/-- What `express.json({ limit: '256kb' })` makes of the body. -/
inductive Body where
  | json (v : Json)
  | tooLarge
  | malformed
  /-- The charset or the encoding is unknown. -/
  | unsupported

structure HttpRequest where
  method : Method
  route : Route
  origin : Option String
  credentials : Credentials
  events : EventsQuery
  idempotencyKey : String
  ip : String
  body : Body
  time : ℕ

inductive Content where
  | empty
  | unauthorized
  | notFound
  | bodyRefused
  | health (streamClients : ℕ)
  /-- The response stays open. -/
  | stream (client : ℕ)
  | packet (r : Response)

structure Answer where
  status : ℕ
  /-- `Access-Control-Allow-Origin` -/
  allowOrigin : Option String
  content : Content

/-- `ALLOWED_ORIGINS`. -/
def allowedOrigins : List String :=
  ["http://localhost:3000", "http://localhost:3001", "http://localhost:3002",
    "http://localhost:3010", "http://127.0.0.1:3001", "http://127.0.0.1:3002",
    "http://127.0.0.1:3010", "http://[::1]:3001", "http://[::1]:3002"]

/-- The state behind the routes, with the connections of `GET /stream`. -/
structure LocalApp where
  broker : LocalServer
  hub : Hub

inductive AppEvent where
  | request (r : HttpRequest)
  /-- A publication from inside of the process, or an event of a connection. -/
  | inside (e : HubEvent)

namespace LocalApp

section Step

variable {δ : Type} [DecidableEq δ] (digest : String → δ) (token : String)
  (stringify : JsonRecord → JsonText)

/-- `GET /stream` behind the token check. The connection gets the next number. -/
def openStream (app : LocalApp) (events : EventsQuery) : Content × LocalApp :=
  let client := app.hub.server.connections.length
  match app.hub.step (.connect client (requestedEvents events)) with
  | none => (.stream client, app)
  | some hub => (.stream client, { app with hub })

/-- `POST /packet` behind the token check. -/
def postPacket (app : LocalApp) (r : HttpRequest) (body : Json) : Response × LocalApp :=
  let (response, broker) := handlePacket purgeLarge app.broker r.ip ⟨r.idempotencyKey, body⟩ r.time
  -- what the broker publishes goes to the connections
  let news := broker.published.drop app.broker.published.length
  let hub := news.foldl (fun hub p => hub.publish p.event.type (stringify p.event.payload)) app.hub
  (response, ⟨broker, hub⟩)

/-- The routes, behind the body parser. -/
def route (app : LocalApp) (r : HttpRequest) (body : Json) : ℕ × Content × LocalApp :=
  match r.method, r.route with
  | .get, .health => (200, .health app.hub.server.bus.clientCount, app)
  | .get, .stream =>
    if requireToken digest token r.credentials then (200, app.openStream r.events)
    else (401, .unauthorized, app)
  | .post, .packet =>
    if requireToken digest token r.credentials then
      let (response, app) := app.postPacket stringify r body
      (response.status, .packet response, app)
    else (401, .unauthorized, app)
  | _, _ => (404, .notFound, app)

/-- A request, through `corsAllowlist` and the body parser to its route. -/
def respond (app : LocalApp) (r : HttpRequest) : Answer × LocalApp :=
  let allowOrigin := r.origin.filter (allowedOrigins.contains ·)
  if r.method = .options then (⟨204, allowOrigin, .empty⟩, app)
  else
    match r.body with
    | .tooLarge => (⟨413, allowOrigin, .bodyRefused⟩, app)
    | .malformed => (⟨400, allowOrigin, .bodyRefused⟩, app)
    | .unsupported => (⟨415, allowOrigin, .bodyRefused⟩, app)
    | .json v =>
      let (status, content, app) := app.route digest token stringify r v
      (⟨status, allowOrigin, content⟩, app)

def step (app : LocalApp) : AppEvent → Option Answer × LocalApp
  | .request r =>
    let (answer, app) := app.respond digest token stringify r
    (some answer, app)
  | .inside e => (none, { app with hub := (app.hub.step e).getD app.hub })

/-- The request asks for what only a token opens. -/
def guarded (r : HttpRequest) : Bool :=
  (r.method = .get && r.route = .stream) || (r.method = .post && r.route = .packet)

/-- The status of a request that does not come to the handler of its route. -/
def refusal (r : HttpRequest) : Option ℕ :=
  if r.method = .options then some 204
  else
    match r.body with
    | .tooLarge => some 413
    | .malformed => some 400
    | .unsupported => some 415
    | .json _ =>
      if guarded r then if requireToken digest token r.credentials then none else some 401
      else if r.method = .get ∧ r.route = .health then none
      else some 404

/-- A request that is refused. -/
def refused : AppEvent → Bool
  | .request r => (refusal digest token r).isSome
  | .inside _ => false

end Step

section Unseen

variable {δ : Type} [DecidableEq δ] {digest : String → δ} {token : String}
  {stringify : JsonRecord → JsonText}

/-- A route that a request does not reach answers with the status, and leaves the state alone. -/
theorem route_of_refusal (app : LocalApp) {r : HttpRequest} {v : Json} (hbody : r.body = .json v)
    (hmethod : r.method ≠ .options) {status : ℕ} (h : refusal digest token r = some status) :
    ∃ content, app.route digest token stringify r v = (status, content, app) := by
  simp only [refusal, if_neg hmethod, hbody, guarded] at h
  cases hm : r.method with
  | options => exact absurd hm hmethod
  | get =>
    cases hr : r.route with
    | stream =>
      have htoken : requireToken digest token r.credentials = false := by
        by_contra hnot
        simp [hm, hr, Bool.eq_true_of_not_eq_false hnot] at h
      obtain rfl : 401 = status := by simpa [hm, hr, htoken] using h
      exact ⟨.unauthorized, by simp [route, hm, hr, htoken]⟩
    | health => simp [hm, hr] at h
    | packet | other =>
      obtain rfl : 404 = status := by simpa [hm, hr] using h
      exact ⟨.notFound, by simp [route, hm, hr]⟩
  | post =>
    cases hr : r.route with
    | packet =>
      have htoken : requireToken digest token r.credentials = false := by
        by_contra hnot
        simp [hm, hr, Bool.eq_true_of_not_eq_false hnot] at h
      obtain rfl : 401 = status := by simpa [hm, hr, htoken] using h
      exact ⟨.unauthorized, by simp [route, hm, hr, htoken]⟩
    | health | stream | other =>
      obtain rfl : 404 = status := by simpa [hm, hr] using h
      exact ⟨.notFound, by simp [route, hm, hr]⟩
  | other =>
    obtain rfl : 404 = status := by simpa [hm] using h
    exact ⟨.notFound, by simp [route, hm]⟩

/-- A refused request leaves the state alone, and is answered so. -/
theorem respond_of_refusal (app : LocalApp) {r : HttpRequest} {status : ℕ}
    (h : refusal digest token r = some status) :
    (app.respond digest token stringify r).2 = app ∧
      (app.respond digest token stringify r).1.status = status := by
  by_cases hmethod : r.method = .options
  · rw [refusal, if_pos hmethod] at h
    rw [respond]
    simp only [if_pos hmethod]
    exact ⟨trivial, Option.some.inj h⟩
  · cases hbody : r.body with
    | json v =>
      obtain ⟨content, hroute⟩ : ∃ content,
          app.route digest token stringify r v = (status, content, app) :=
        route_of_refusal app hbody hmethod h
      rw [respond]
      simp only [if_neg hmethod, hbody, hroute]
      exact ⟨trivial, trivial⟩
    | tooLarge | malformed | unsupported =>
      simp only [refusal, if_neg hmethod, hbody] at h
      rw [respond]
      simp only [if_neg hmethod, hbody]
      exact ⟨trivial, Option.some.inj h⟩

/-- Only the token opens what is guarded, if no other text has its digest. -/
theorem requireToken_iff (htoken : token ≠ "")
    (hdigest : ∀ text, digest text = digest token → text = token) (c : Credentials) :
    requireToken digest token c = true ↔ c.provided = token := by
  rw [requireToken, Bool.and_eq_true, decide_eq_true_iff, decide_eq_true_iff]
  constructor
  · exact fun h => hdigest _ h.2
  · intro h
    rw [h]
    exact ⟨htoken, rfl⟩

theorem refusal_eq_none_iff (htoken : token ≠ "")
    (hdigest : ∀ text, digest text = digest token → text = token) (r : HttpRequest) :
    refusal digest token r = none ↔ (∃ v, r.body = .json v) ∧
      (r.method = .get ∧ r.route = .health ∨ guarded r = true ∧ r.credentials.provided = token) := by
  have hopens := requireToken_iff htoken hdigest r.credentials
  by_cases hmethod : r.method = .options
  · have hclosed : guarded r = false := by simp [guarded, hmethod]
    simp [refusal, hmethod, hclosed]
  · rw [refusal, if_neg hmethod]
    cases hbody : r.body with
    | tooLarge | malformed | unsupported => simp
    | json v =>
      cases hguarded : guarded r with
      | true =>
        have hhealth : ¬ (r.method = .get ∧ r.route = .health) := by
          rintro ⟨hm, hr⟩
          simp [guarded, hm, hr] at hguarded
        simp [hhealth, hopens]
      | false => simp

/-- An order with the token, and one with another. -/
def twoOrders : List AppEvent :=
  let order : Json := .obj [("type", .str "order.placed"), ("payload", .obj [])]
  let post (bearer key : String) : AppEvent :=
    .request ⟨.post, .packet, none, ⟨some bearer, none⟩, .text "", key, "127.0.0.1", .json order, 0⟩
  [post "Bearer T0" "order-0001", post "Bearer T1" "order-0002"]

end Unseen

end LocalApp

end Hotelia.Broker
