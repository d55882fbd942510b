import Mathlib.Data.Nat.Digits.Defs
import Sonarr.Lib.Text
import Sonarr.Providers.DownloadClient

namespace Sonarr.Providers
open Lib

/-- What comes back of an HTTP request: no answer, or a status and a body. A body
that does not decode is `none`. -/
abbrev Reply (α : Type) := Except String (Nat × Option α)

/-- `%d` of a 64-bit number. -/
def decimal (n : Int64) : String := toString n.toInt

variable {σ : Type}

namespace QBittorrent

structure Settings where
  host : String
  port : Int
  username : String
  password : String
  category : String
  useSsl : Bool
  deriving DecidableEq, Repr

structure TorrentInfo where
  hash : String
  name : String
  state : String
  size : Int
  amountLeft : Int
  savePath : String
  deriving DecidableEq, Repr

/-- The requests of the web API that the client makes. -/
structure Api (σ : Type) where
  login : σ → (username password : String) → Reply String × σ
  add : σ → (urls category : String) → Reply Unit × σ
  info : σ → (category : String) → Reply (List TorrentInfo) × σ

def baseURL (q : Settings) : String :=
  (if q.useSsl then "https" else "http") ++ "://" ++ q.host ++ ":" ++ toString q.port

/-- The error of a failed login, if it failed. -/
def login (api : Api σ) (q : Settings) (s : σ) : Option String × σ :=
  match api.login s q.username q.password with
  | (.error e, s) => (some ("qbittorrent: login request failed: " ++ e), s)
  | (.ok (status, body), s) =>
    if status ≠ 200 then (some ("qbittorrent: login returned status " ++ toString status), s)
    else if Text.trimSpace (body.getD "") = "Fails." then
      (some "qbittorrent: login failed — bad credentials", s)
    else (none, s)

/-- `QBittorrent.Add`: the id it returns is the URL itself. -/
def add (api : Api σ) (q : Settings) (s : σ) (torrentURL _title : String) :
    Except String String × σ :=
  match login api q s with
  | (some e, s) => (.error e, s)
  | (none, s) => match api.add s torrentURL q.category with
    | (.error e, s) => (.error ("qbittorrent: add request failed: " ++ e), s)
    | (.ok (status, _), s) =>
      if status ≠ 200 then (.error ("qbittorrent: add returned status " ++ toString status), s)
      else (.ok torrentURL, s)

def item (t : TorrentInfo) : Item :=
  { downloadID := t.hash, title := t.name, status := t.state, totalSize := t.size
    remaining := t.amountLeft, outputPath := t.savePath }

/-- `QBittorrent.Items`: the ids are the server's hashes, the states its own. -/
def items (api : Api σ) (q : Settings) (s : σ) : Except String (List Item) × σ :=
  match login api q s with
  | (some e, s) => (.error e, s)
  | (none, s) => match api.info s q.category with
    | (.error e, s) => (.error ("qbittorrent: items request failed: " ++ e), s)
    | (.ok (status, body), s) =>
      if status ≠ 200 then
        (.error ("qbittorrent: torrents/info returned status " ++ toString status), s)
      else match body with
        | none => (.error "qbittorrent: failed to parse items response", s)
        | some torrents => (.ok (torrents.map item), s)

def factory (decode : String → Option Settings) (server : String → Api σ) : Factory σ where
  protocol := .torrent
  configure text := (decode text).map (fun q =>
    ⟨add (server (baseURL q)) q, items (server (baseURL q)) q⟩)

theorem add_ok (title : String) (h : (add api q s url title).1 = .ok d) : d = url := by
  unfold add at h
  split at h
  · cases h
  · split at h
    · cases h
    · split at h
      · cases h
      · exact (Except.ok.inj h).symm

/-- What is listed are torrents that the server gave. -/
theorem items_ok (h : (items api q s).1 = .ok l) (hi : i ∈ l) :
    ∃ s torrents, ∃ t ∈ torrents, (api.info s q.category).1 = .ok (200, some torrents) ∧
      i = item t := by
  unfold items at h
  split at h
  · cases h
  · rename_i s' _
    split at h
    · cases h
    · rename_i status body s'' hinfo
      split at h
      · cases h
      · split at h
        · cases h
        · rename_i hs _ torrents
          cases Except.ok.inj h
          obtain ⟨t, ht, rfl⟩ := List.mem_map.mp hi
          refine ⟨s', torrents, t, ht, ?_, rfl⟩
          rw [hinfo, not_not.mp hs]

end QBittorrent

namespace Transmission

structure Settings where
  host : String
  port : Int
  urlBase : String
  username : String
  password : String
  useSsl : Bool
  deriving DecidableEq, Repr

structure TorrentRef where
  id : Int64
  name : String

structure TorrentGetItem where
  id : Int64
  name : String
  status : Int
  totalSize : Int
  leftUntilDone : Int
  downloadDir : String

/-- The arguments of an RPC answer: left out, of another shape, or decoded. -/
inductive Arguments (α : Type)
  | absent
  | malformed
  | decoded (a : α)

structure Rpc (α : Type) where
  result : String
  arguments : Arguments α

/-- An HTTP answer with the session id in its header. -/
structure Response (α : Type) where
  status : Nat
  sessionID : String
  body : Option (Rpc α)

structure AddResult where
  torrentAdded : Option TorrentRef
  torrentDuplicate : Option TorrentRef

/-- The RPC methods that the client calls, sent under a session id. -/
structure Api (σ : Type) where
  torrentAdd : σ → (sessionID filename : String) → Except String (Response AddResult) × σ
  torrentGet : σ → (sessionID : String) → Except String (Response (List TorrentGetItem)) × σ

def rpcURL (t : Settings) : String :=
  let base := if t.urlBase = "" then "/transmission/" else t.urlBase
  (if t.useSsl then "https" else "http") ++ "://" ++ t.host ++ ":" ++ toString t.port ++
    Text.trimRight base '/' ++ "/rpc"

section
variable {α : Type} (post : σ → String → Except String (Response α) × σ)

/-- One POST: the body, or the session id that a conflict asks for. -/
def httpPost (s : σ) (sessionID : String) : Except String (Option (Rpc α) × String) × σ :=
  match post s sessionID with
  | (.error e, s) => (.error ("transmission: request failed: " ++ e), s)
  | (.ok r, s) =>
    if r.status = 409 then (.ok (none, r.sessionID), s)
    else if r.status ≠ 200 then
      (.error ("transmission: rpc returned status " ++ toString r.status), s)
    else (.ok (r.body, ""), s)

/-- A new client has no session id and posts once more when it is given one. -/
def doCall (s : σ) : Except String (Option (Rpc α)) × σ :=
  match httpPost post s "" with
  | (.error e, s) => (.error e, s)
  | (.ok (body, sessionID), s) =>
    if sessionID ≠ "" then
      match httpPost post s sessionID with
      | (.error e, s) => (.error e, s)
      | (.ok (body, _), s) => (.ok body, s)
    else (.ok body, s)

/-- `Transmission.call`; without arguments the result keeps its zero value. -/
def call (zero : α) (s : σ) : Except String α × σ :=
  match doCall post s with
  | (.error e, s) => (.error e, s)
  | (.ok none, s) => (.error "transmission: failed to parse response", s)
  | (.ok (some rpc), s) =>
    if rpc.result ≠ "success" then
      (.error ("transmission: rpc returned \"" ++ rpc.result ++ "\""), s)
    else match rpc.arguments with
      | .absent => (.ok zero, s)
      | .malformed => (.error "transmission: arguments do not decode", s)
      | .decoded a => (.ok a, s)

end

/-- `Transmission.Add`: the id is the server's number, also of a torrent it already had. -/
def add (api : Api σ) (s : σ) (torrentURL _title : String) : Except String String × σ :=
  match call (fun s id => api.torrentAdd s id torrentURL) ⟨none, none⟩ s with
  | (.error e, s) => (.error e, s)
  | (.ok ⟨some t, _⟩, s) => (.ok (decimal t.id), s)
  | (.ok ⟨none, some t⟩, s) => (.ok (decimal t.id), s)
  | (.ok ⟨none, none⟩, s) => (.error "transmission: torrent-add returned no torrent info", s)

def transmissionStatus (code : Int) : String :=
  if code = 0 then "stopped"
  else if code = 1 ∨ code = 2 then "check_waiting"
  else if code = 3 ∨ code = 4 then "downloading"
  else if code = 5 ∨ code = 6 then "seeding"
  else "unknown"

def item (t : TorrentGetItem) : Item :=
  { downloadID := decimal t.id, title := t.name, status := transmissionStatus t.status
    totalSize := t.totalSize, remaining := t.leftUntilDone, outputPath := t.downloadDir }

def items (api : Api σ) (s : σ) : Except String (List Item) × σ :=
  match call api.torrentGet [] s with
  | (.error e, s) => (.error e, s)
  | (.ok torrents, s) => (.ok (torrents.map item), s)

def factory (decode : String → Option Settings) (server : String → Api σ) : Factory σ where
  protocol := .torrent
  configure text := (decode text).map (fun t => ⟨add (server (rpcURL t)), items (server (rpcURL t))⟩)

/-- No torrent is ever reported as completed. -/
theorem status_ne_completed (code : Int) : transmissionStatus code ≠ "completed" := by
  unfold transmissionStatus
  split_ifs <;> decide

theorem add_ok (title : String) (h : (add api s url title).1 = .ok d) : ∃ id, d = decimal id := by
  unfold add at h
  split at h
  · cases h
  · exact ⟨_, (Except.ok.inj h).symm⟩
  · exact ⟨_, (Except.ok.inj h).symm⟩
  · cases h

theorem items_ok (h : (items api s).1 = .ok l) (hi : i ∈ l) : i.status ≠ "completed" := by
  unfold items at h
  split at h
  · cases h
  · cases Except.ok.inj h
    obtain ⟨t, _, rfl⟩ := List.mem_map.mp hi
    exact status_ne_completed t.status

end Transmission

namespace NZBGet

structure Settings where
  host : String
  port : Int
  username : String
  password : String
  category : String
  useSsl : Bool
  deriving DecidableEq, Repr

structure ListGroupsItem where
  nzbID : Int64
  nzbFilename : String
  status : String
  fileSizeMB : Int64
  remainingSizeMB : Int64
  destDir : String

/-- A JSON-RPC answer: an error, or a result that may not decode. -/
structure RpcResponse (α : Type) where
  error : Option (Int × String)
  result : Option α

structure Api (σ : Type) where
  append : σ → (nzbFilename url category : String) → Reply (RpcResponse Int64) × σ
  listgroups : σ → Reply (RpcResponse (List ListGroupsItem)) × σ

def jsonrpcURL (n : Settings) : String :=
  (if n.useSsl then "https" else "http") ++ "://" ++ n.host ++ ":" ++ toString n.port ++ "/jsonrpc"

/-- `NZBGet.call` on the answer to its request. -/
def result {α : Type} : Reply (RpcResponse α) → Except String α
  | .error e => .error ("nzbget: request failed: " ++ e)
  | .ok (status, body) =>
    if status ≠ 200 then .error ("nzbget: jsonrpc returned status " ++ toString status)
    else match body with
      | none => .error "nzbget: failed to parse response"
      | some ⟨some (code, message), _⟩ =>
        .error ("nzbget: rpc error " ++ toString code ++ ": " ++ message)
      | some ⟨none, none⟩ => .error "nzbget: result does not decode"
      | some ⟨none, some a⟩ => .ok a

def add (api : Api σ) (n : Settings) (s : σ) (nzbURL title : String) : Except String String × σ :=
  let (reply, s) := api.append s title nzbURL n.category
  match result reply with
  | .error e => (.error e, s)
  | .ok id =>
    if id ≤ 0 then (.error ("nzbget: append returned ID " ++ decimal id), s)
    else (.ok (decimal id), s)

/-- Sizes in MB are multiplied out in 64 bits. -/
def item (g : ListGroupsItem) : Item :=
  { downloadID := decimal g.nzbID, title := g.nzbFilename, status := g.status
    totalSize := (g.fileSizeMB * 1024 * 1024).toInt
    remaining := (g.remainingSizeMB * 1024 * 1024).toInt, outputPath := g.destDir }

def items (api : Api σ) (s : σ) : Except String (List Item) × σ :=
  let (reply, s) := api.listgroups s
  match result reply with
  | .error e => (.error e, s)
  | .ok groups => (.ok (groups.map item), s)

def factory (decode : String → Option Settings) (server : String → Api σ) : Factory σ where
  protocol := .usenet
  configure text := (decode text).map (fun n =>
    ⟨add (server (jsonrpcURL n)) n, items (server (jsonrpcURL n))⟩)

end NZBGet
end Sonarr.Providers
