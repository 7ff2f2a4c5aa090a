import Latency.Session.Wait
/-!
# Requests and documents

Writing to the server: requests with ids 1, 2, ..., notifications, the handshake, and the documents
that are opened and changed.
-/

namespace Latency

/-- The seconds that a server has to answer `initialize`. -/
def handshakeSeconds : Nat := 10

def handshakeParams (rootUri : String) : Json :=
  .obj [("processId", .int clientPid), ("rootUri", .str rootUri),
    ("capabilities", clientCapabilities)]

def openParams (uri languageId text : String) : Json :=
  .obj [("textDocument", .obj [("uri", .str uri), ("languageId", .str languageId),
    ("version", .int 1), ("text", .str text)])]

def changeParams (uri : String) (version : Json) (text : String) : Json :=
  .obj [("textDocument", .obj [("uri", .str uri), ("version", version)]),
    ("contentChanges", .arr [.obj [("text", .str text)]])]

/-- What an error says: its message if it has one, else the whole of it. -/
def errorDetail (error : Json) : String :=
  match error with
  | .obj members => ((members.lookup "message").getD error).display
  | other => other.display

namespace Session

variable {τ : Type} [Clock τ]

def write (method : String) (m : Json) (s : Session τ) : Except SessionError Unit × Session τ :=
  let noted := s.note ("[" ++ s.label ++ " ->] " ++ method)
  match noted.process.write noted.clock m with
  | (.ok (), p) => (.ok (), { noted with process := p })
  | (.error failure, p) => (.error (.write s.label failure), { noted with process := p })

/-- Sends a request and gives its id, which is used up even if the request cannot be written. -/
def send (method : String) (params : Json) (s : Session τ) : Except SessionError Nat × Session τ :=
  let id := s.nextId
  match { s with nextId := id + 1 }.write method (requestMessage id method params) with
  | (.ok (), next) => (.ok id, next)
  | (.error e, next) => (.error e, next)

def notify (method : String) (params : Json) (s : Session τ) :
    Except SessionError Unit × Session τ :=
  s.write method (notificationMessage method params)

def request (method : String) (params : Json) (timeout : τ) (s : Session τ) :
    Except SessionError Json × Session τ :=
  match s.send method params with
  | (.error e, next) => (.error e, next)
  | (.ok id, next) => next.readResponse (.int id) timeout

/-- The handshake: `initialize`, and `initialized` when it was answered without an error. -/
def handshake (rootUri : String) (s : Session τ) : Except SessionError Json × Session τ :=
  match s.request "initialize" (handshakeParams rootUri) (Clock.seconds handshakeSeconds) with
  | (.error e, next) => (.error e, next)
  | (.ok response, next) =>
    match response.get? "error" with
    | some error => (.error (.refused (errorDetail error)), next)
    | none =>
      match next.notify "initialized" (.obj []) with
      | (.error e, last) => (.error e, last)
      | (.ok (), last) => (.ok response, last)

/-- Opens a document under the URI of its resolved path, and gives the URI. -/
def openFile (files : Files) (path : Path) (languageId : String) (s : Session τ) :
    Except SessionError String × Session τ :=
  match files.readText path with
  | .error cause => (.error (.unreadable path cause), s)
  | .ok text =>
    let uri := (Path.resolve files.base path).uri
    match s.notify "textDocument/didOpen" (openParams uri languageId text) with
    | (.error e, next) => (.error e, next)
    | (.ok (), next) => (.ok uri, next)

def changeFile (uri : String) (version : Json) (text : String) (s : Session τ) :
    Except SessionError Unit × Session τ :=
  s.notify "textDocument/didChange" (changeParams uri version text)

end Session

end Latency
