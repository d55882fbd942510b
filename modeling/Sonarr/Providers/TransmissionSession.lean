import Sonarr.Lib.Json
import Sonarr.Providers.Implementations

/-! The session ids of Transmission: a client that keeps the id it was given last, and what it makes
of every sequence of answers. -/
namespace Sonarr.Providers.Transmission.Session
open Lib

/-- A request as the server gets it. -/
structure Sent where
  data : String
  sessionID : String
  deriving DecidableEq, Repr

structure Exchange (α : Type) where
  sent : Sent
  answer : Except String (Response α)

abbrev Server (α σ : Type) := σ → Sent → Except String (Response α) × σ

/-- The server, and what has been exchanged with it. -/
structure Wire (α σ : Type) where
  exchanges : List (Exchange α)
  server : σ

variable {α σ : Type}

def post (serve : Server α σ) (data : String) (w : Wire α σ) (sessionID : String) :
    Except String (Response α) × Wire α σ :=
  let sent := ⟨data, sessionID⟩
  let (answer, server) := serve w.server sent
  (answer, ⟨w.exchanges ++ [⟨sent, answer⟩], server⟩)

/-- `doCall` of a client that has a session id, with the id it has afterwards. -/
def doCall (serve : Server α σ) (data stored : String) (w : Wire α σ) :
    Except String (Option (Rpc α)) × String × Wire α σ :=
  match httpPost (post serve data) w stored with
  | (.error e, w) => (.error e, stored, w)
  | (.ok (body, sessionID), w) =>
    if sessionID ≠ "" ∧ sessionID ≠ stored then
      match httpPost (post serve data) w sessionID with
      | (.error e, w) => (.error e, sessionID, w)
      | (.ok (body, _), w) => (.ok body, sessionID, w)
    else (.ok body, stored, w)

/-- What `call` makes of a body when it is asked for a result. -/
def parse (zero : α) : Option (Rpc α) → Except String α
  | none => .error "transmission: failed to parse response"
  | some rpc =>
    if rpc.result ≠ "success" then .error ("transmission: rpc returned \"" ++ rpc.result ++ "\"")
    else match rpc.arguments with
      | .absent => .ok zero
      | .malformed => .error "transmission: arguments do not decode"
      | .decoded a => .ok a

def call (serve : Server α σ) (data : String) (zero : α) (stored : String) (w : Wire α σ) :
    Except String α × String × Wire α σ :=
  match doCall serve data stored w with
  | (.error e, stored, w) => (.error e, stored, w)
  | (.ok body, stored, w) => (parse zero body, stored, w)

/-- `call` without a result: the body is not looked at. -/
def callNil (serve : Server α σ) (data stored : String) (w : Wire α σ) :
    Except String Unit × String × Wire α σ :=
  match doCall serve data stored w with
  | (.error e, stored, w) => (.error e, stored, w)
  | (.ok _, stored, w) => (.ok (), stored, w)

/-- A client without a session id is the one that other parts of the development use. -/
theorem doCall_new (serve : Server α σ) (data : String) (w : Wire α σ) :
    Transmission.doCall (post serve data) w =
      ((doCall serve data "" w).1, (doCall serve data "" w).2.2) := by
  simp only [Transmission.doCall, doCall]
  rcases httpPost (post serve data) w "" with ⟨_ | ⟨body, sessionID⟩, w'⟩
  · rfl
  · by_cases hid : sessionID = ""
    · simp [hid]
    · simp only [ne_eq, hid, not_false_iff, and_self, if_true]
      rcases httpPost (post serve data) w' sessionID with ⟨_ | ⟨body', _⟩, w''⟩ <;> rfl

theorem call_new (serve : Server α σ) (data : String) (zero : α) (w : Wire α σ) :
    Transmission.call (post serve data) zero w =
      ((call serve data zero "" w).1, (call serve data zero "" w).2.2) := by
  simp only [Transmission.call, call, doCall_new]
  rcases doCall serve data "" w with ⟨_ | _ | rpc, stored, w'⟩
  · rfl
  · rfl
  · simp only [parse]
    split
    · rfl
    · cases rpc.arguments <;> rfl

/-- The JSON text of a request. The keys are in order. -/
def request (method arguments : String) : String :=
  "\x7b\"arguments\":" ++ arguments ++ ",\"method\":" ++ Json.quote method ++ "\x7d"

def addRequest (torrentURL : String) : String :=
  request "torrent-add" ("\x7b\"filename\":" ++ Json.quote torrentURL ++ "\x7d")

def itemsRequest : String :=
  request "torrent-get" ("\x7b\"fields\":[" ++ String.intercalate ","
    (["id", "name", "status", "totalSize", "leftUntilDone", "downloadDir"].map Json.quote) ++
      "]\x7d")

def removeRequest (id : Int64) (deleteData : Bool) : String :=
  request "torrent-remove" ("\x7b\"delete-local-data\":" ++ (if deleteData then "true" else "false") ++
    ",\"ids\":[" ++ decimal id ++ "]\x7d")

def testRequest : String := request "session-get" "\x7b\x7d"

def add (serve : Server AddResult σ) (stored : String) (w : Wire AddResult σ)
    (torrentURL _title : String) : Except String String × String × Wire AddResult σ :=
  match call serve (addRequest torrentURL) ⟨none, none⟩ stored w with
  | (.error e, stored, w) => (.error e, stored, w)
  | (.ok ⟨some t, _⟩, stored, w) => (.ok (decimal t.id), stored, w)
  | (.ok ⟨none, some t⟩, stored, w) => (.ok (decimal t.id), stored, w)
  | (.ok ⟨none, none⟩, stored, w) =>
    (.error "transmission: torrent-add returned no torrent info", stored, w)

def items (serve : Server (List TorrentGetItem) σ) (stored : String)
    (w : Wire (List TorrentGetItem) σ) :
    Except String (List Item) × String × Wire (List TorrentGetItem) σ :=
  match call serve itemsRequest [] stored w with
  | (.error e, stored, w) => (.error e, stored, w)
  | (.ok torrents, stored, w) => (.ok (torrents.map item), stored, w)

/-- `Remove`, with the number that `fmt.Sscan` reads of an id. -/
def remove (scan : String → Except String Int64) (serve : Server α σ) (stored : String)
    (w : Wire α σ) (downloadID : String) (deleteData : Bool) :
    Except String Unit × String × Wire α σ :=
  match scan downloadID with
  | .error e =>
    (.error ("transmission: parse download ID \"" ++ downloadID ++ "\": " ++ e), stored, w)
  | .ok id => callNil serve (removeRequest id deleteData) stored w

def test (serve : Server α σ) (stored : String) (w : Wire α σ) :
    Except String Unit × String × Wire α σ :=
  callNil serve testRequest stored w

/-- A session id that the client does not have yet. -/
def Fresh (stored sessionID : String) : Prop := sessionID ≠ "" ∧ sessionID ≠ stored

instance : Decidable (Fresh stored sessionID) := inferInstanceAs (Decidable (_ ∧ _))

/-- The server has done what it was asked for. -/
def Success (r : Response α) : Prop :=
  r.status = 200 ∧ ∃ rpc, r.body = some rpc ∧ rpc.result = "success"

/-- A call with its requests: it succeeds only if the last answer says so, and a request that is
refused for its session id is sent once more. -/
structure Conforms (stored : String) (succeeded : Prop) (exchanges : List (Exchange α)) : Prop where
  success : succeeded → ∃ e r, exchanges.getLast? = some e ∧ e.answer = .ok r ∧ Success r
  retried : ∀ e r, exchanges.head? = some e → e.answer = .ok r → r.status = 409 →
    Fresh stored r.sessionID →
    ∃ e', exchanges = [e, e'] ∧ e'.sent = ⟨e.sent.data, r.sessionID⟩
  atMostTwo : exchanges.length ≤ 2

/-- The session id that a refusal offers. -/
def offered : Except String (Response α) → String
  | .error _ => ""
  | .ok r => if r.status = 409 then r.sessionID else ""

/-- The answer that decides on a call. -/
def deciding (serve : Server α σ) (data stored : String) (s : σ) : Except String (Response α) :=
  let (answer, s) := serve s ⟨data, stored⟩
  if Fresh stored (offered answer) then (serve s ⟨data, offered answer⟩).1 else answer

/-- The deciding answer is no refusal, and if it is a 200 it is a success. -/
def Truthful (serve : Server α σ) (data stored : String) (s : σ) : Prop :=
  ∀ r, deciding serve data stored s = .ok r → r.status = 200 ∨ r.status = 409 → Success r

/-- The exchanges of a call. -/
def dialogue (serve : Server α σ) (data stored : String) (s : σ) : List (Exchange α) :=
  let (answer, s) := serve s ⟨data, stored⟩
  ⟨⟨data, stored⟩, answer⟩ :: if Fresh stored (offered answer) then
    [⟨⟨data, offered answer⟩, (serve s ⟨data, offered answer⟩).1⟩] else []

/-- What is made of an answer. -/
def outcome : Except String (Response α) → Except String (Option (Rpc α))
  | .error e => .error ("transmission: request failed: " ++ e)
  | .ok r =>
    if r.status = 409 then .ok none
    else if r.status ≠ 200 then .error ("transmission: rpc returned status " ++ toString r.status)
    else .ok r.body

theorem outcome_ok {answer : Except String (Response α)} (h : outcome answer = .ok body) :
    ∃ r, answer = .ok r ∧ (r.status = 409 ∧ body = none ∨ r.status = 200 ∧ body = r.body) := by
  cases answer with
  | error e => cases h
  | ok r =>
    refine ⟨r, rfl, ?_⟩
    simp only [outcome] at h
    split at h
    · cases h
      exact .inl ⟨‹_›, rfl⟩
    · split at h
      · cases h
      · cases h
        exact .inr ⟨not_not.mp ‹_›, rfl⟩

section Calls
variable (serve : Server α σ) (data stored : String) (s : σ)

theorem httpPost_eq (w : Wire α σ) (sessionID : String) :
    httpPost (post serve data) w sessionID =
      ((outcome (serve w.server ⟨data, sessionID⟩).1).map
          (fun body => (body, offered (serve w.server ⟨data, sessionID⟩).1)),
        (post serve data w sessionID).2) := by
  simp only [httpPost, post]
  rcases serve w.server ⟨data, sessionID⟩ with ⟨_ | r, s'⟩
  · rfl
  · simp only [outcome, offered]
    split
    · rfl
    · split <;> rfl

/-- An answer that ends the call offers no session id. -/
theorem not_fresh_of_error {answer : Except String (Response α)} (h : outcome answer = .error e) :
    ¬ Fresh stored (offered answer) := by
  cases answer with
  | error _ => exact fun hfresh => hfresh.1 rfl
  | ok r =>
    have hstatus : r.status ≠ 409 := by
      intro hstatus
      simp [outcome, hstatus] at h
    simp [offered, hstatus, Fresh]

/-- A call is decided by its deciding answer, whatever was said before. -/
theorem doCall_eq : (doCall serve data stored ⟨[], s⟩).1 = outcome (deciding serve data stored s) ∧
    (doCall serve data stored ⟨[], s⟩).2.2.exchanges = dialogue serve data stored s := by
  simp only [doCall, httpPost_eq, post, deciding, dialogue, List.nil_append]
  rcases serve s ⟨data, stored⟩ with ⟨answer, s'⟩
  cases hout : outcome answer with
  | error e => simp [not_fresh_of_error stored hout, hout, Except.map]
  | ok body =>
    by_cases hfresh : Fresh stored (offered answer)
    · have hretry : offered answer ≠ "" ∧ offered answer ≠ stored := hfresh
      simp only [Except.map, if_pos hfresh, if_pos hretry]
      rcases serve s' ⟨data, offered answer⟩ with ⟨answer', s''⟩
      cases outcome answer' <;> simp
    · have hend : ¬ (offered answer ≠ "" ∧ offered answer ≠ stored) := hfresh
      simp only [Except.map, if_neg hfresh, if_neg hend, hout, and_self]

theorem dialogue_last : ∃ e, (dialogue serve data stored s).getLast? = some e ∧
    e.answer = deciding serve data stored s := by
  simp only [dialogue, deciding]
  rcases serve s ⟨data, stored⟩ with ⟨answer, s'⟩
  by_cases hfresh : Fresh stored (offered answer)
  · simp only [if_pos hfresh]
    exact ⟨_, rfl, rfl⟩
  · simp only [if_neg hfresh]
    exact ⟨_, rfl, rfl⟩

/-- The handshake is kept in every call; what is left is whether its success is one. -/
theorem conforms_iff : Conforms stored succeeded (dialogue serve data stored s) ↔
    (succeeded → ∃ r, deciding serve data stored s = .ok r ∧ Success r) := by
  obtain ⟨last, hlast, hanswer⟩ := dialogue_last serve data stored s
  constructor
  · intro h hsucceeded
    obtain ⟨e, r, he, hr, hsuccess⟩ := h.success hsucceeded
    cases hlast.symm.trans he
    exact ⟨r, hanswer.symm.trans hr, hsuccess⟩
  · intro h
    refine ⟨?_, ?_, ?_⟩
    · intro hsucceeded
      obtain ⟨r, hr, hsuccess⟩ := h hsucceeded
      exact ⟨last, r, hlast, hanswer.trans hr, hsuccess⟩
    · intro e r he hr hstatus hfresh
      simp only [dialogue] at he ⊢
      generalize serve s ⟨data, stored⟩ = first at he ⊢
      obtain ⟨answer, s'⟩ := first
      cases he
      have hoffered : offered answer = r.sessionID := by
        cases (hr : answer = .ok r)
        simp [offered, hstatus]
      simp only [hoffered, if_pos hfresh]
      exact ⟨_, rfl, rfl⟩
    · simp only [dialogue]
      split <;> simp

theorem call_eq (zero : α) : (call serve data zero stored ⟨[], s⟩).1 =
      (outcome (deciding serve data stored s)).bind (parse zero) ∧
    (call serve data zero stored ⟨[], s⟩).2.2.exchanges = dialogue serve data stored s := by
  rw [← (doCall_eq serve data stored s).1, ← (doCall_eq serve data stored s).2]
  simp only [call]
  rcases doCall serve data stored ⟨[], s⟩ with ⟨_ | body, stored', w⟩ <;> exact ⟨rfl, rfl⟩

theorem callNil_eq : (callNil serve data stored ⟨[], s⟩).1 =
      (outcome (deciding serve data stored s)).map (fun _ => ()) ∧
    (callNil serve data stored ⟨[], s⟩).2.2.exchanges = dialogue serve data stored s := by
  rw [← (doCall_eq serve data stored s).1, ← (doCall_eq serve data stored s).2]
  simp only [callNil]
  rcases doCall serve data stored ⟨[], s⟩ with ⟨_ | body, stored', w⟩ <;> exact ⟨rfl, rfl⟩

/-- A call that is asked for a result looks at the answer. -/
theorem call_ok (zero : α) (h : (call serve data zero stored ⟨[], s⟩).1 = .ok a) :
    ∃ r, deciding serve data stored s = .ok r ∧ Success r := by
  rw [(call_eq serve data stored s zero).1] at h
  cases hout : outcome (deciding serve data stored s) with
  | error e =>
    rw [hout] at h
    cases h
  | ok body =>
    rw [hout] at h
    obtain ⟨r, hr, hbody⟩ := outcome_ok hout
    refine ⟨r, hr, ?_⟩
    cases body with
    | none => cases h
    | some rpc =>
      have hsuccess : rpc.result = "success" := by
        by_contra hne
        simp [Except.bind, parse, hne] at h
      rcases hbody with ⟨_, hbody⟩ | ⟨hstatus, hbody⟩
      · cases hbody
      · exact ⟨hstatus, rpc, hbody.symm, hsuccess⟩

/-- One that is not asked for a result conforms just if the server is truthful. -/
theorem conforms_callNil_iff :
    Conforms stored ((callNil serve data stored ⟨[], s⟩).1 = .ok ())
      (callNil serve data stored ⟨[], s⟩).2.2.exchanges ↔ Truthful serve data stored s := by
  obtain ⟨hresult, hexchanges⟩ := callNil_eq serve data stored s
  rw [hresult, hexchanges, conforms_iff, Truthful]
  cases hdeciding : deciding serve data stored s with
  | error e => simp [outcome, Except.map]
  | ok r =>
    simp only [outcome, Except.ok.injEq, exists_eq_left', forall_eq']
    by_cases h409 : r.status = 409
    · simp [h409, Except.map]
    · by_cases h200 : r.status = 200
      · simp [h200, Except.map]
      · simp [h409, h200, Except.map]

end Calls

/-- What `Add` and `Items` make of their call keeps an error and exchanges nothing. -/
theorem conforms_of_call {β : Type} (serve : Server α σ) (data : String) (zero : α)
    {out : Except String β × String × Wire α σ}
    (hok : ∀ b, out.1 = .ok b → ∃ a, (call serve data zero stored ⟨[], s⟩).1 = .ok a)
    (hwire : out.2 = (call serve data zero stored ⟨[], s⟩).2) :
    Conforms stored (∃ b, out.1 = .ok b) out.2.2.exchanges := by
  rw [hwire, (call_eq serve data stored s zero).2, conforms_iff]
  rintro ⟨b, hb⟩
  obtain ⟨a, ha⟩ := hok b hb
  exact call_ok serve data stored s zero ha

theorem conforms_add (serve : Server AddResult σ) (stored torrentURL title : String) (s : σ) :
    Conforms stored (∃ id, (add serve stored ⟨[], s⟩ torrentURL title).1 = .ok id)
      (add serve stored ⟨[], s⟩ torrentURL title).2.2.exchanges := by
  have hcall : ∀ out, call serve (addRequest torrentURL) ⟨none, none⟩ stored ⟨[], s⟩ = out →
      (∀ b, (add serve stored ⟨[], s⟩ torrentURL title).1 = .ok b → ∃ a, out.1 = .ok a) ∧
        (add serve stored ⟨[], s⟩ torrentURL title).2 = out.2 := by
    intro out hout
    simp only [add, hout]
    rcases out with ⟨_ | ⟨_ | t, _ | t'⟩, stored', w⟩ <;> simp
  exact conforms_of_call serve (addRequest torrentURL) ⟨none, none⟩ (hcall _ rfl).1 (hcall _ rfl).2

theorem conforms_items (serve : Server (List TorrentGetItem) σ) (stored : String) (s : σ) :
    Conforms stored (∃ l, (items serve stored ⟨[], s⟩).1 = .ok l)
      (items serve stored ⟨[], s⟩).2.2.exchanges := by
  have hcall : ∀ out, call serve itemsRequest [] stored ⟨[], s⟩ = out →
      (∀ b, (items serve stored ⟨[], s⟩).1 = .ok b → ∃ a, out.1 = .ok a) ∧
        (items serve stored ⟨[], s⟩).2 = out.2 := by
    intro out hout
    simp only [items, hout]
    rcases out with ⟨_ | torrents, stored', w⟩ <;> simp
  exact conforms_of_call serve itemsRequest [] (hcall _ rfl).1 (hcall _ rfl).2

theorem conforms_remove_iff (scan : String → Except String Int64) (serve : Server α σ)
    (stored downloadID : String) (deleteData : Bool) (s : σ) :
    Conforms stored ((remove scan serve stored ⟨[], s⟩ downloadID deleteData).1 = .ok ())
        (remove scan serve stored ⟨[], s⟩ downloadID deleteData).2.2.exchanges ↔
      ∀ id, scan downloadID = .ok id → Truthful serve (removeRequest id deleteData) stored s := by
  simp only [remove]
  cases hscan : scan downloadID with
  | error e =>
    refine iff_of_true ⟨?_, ?_, Nat.zero_le _⟩ ?_
    · intro h
      cases h
    · intro e r he
      cases he
    · intro id hid
      cases hid
  | ok id => simp only [conforms_callNil_iff, Except.ok.injEq, forall_eq']

/-- `Add` and `Items` return an error unless the server has done what it was asked for. `Remove` and
`Test` do just if the server answers a request that it does not carry out with a status of its own,
and does not refuse a session id that it gave. -/
theorem errors_surface_iff (scan : String → Except String Int64) (adding : Server AddResult σ)
    (listing : Server (List TorrentGetItem) σ) (serve : Server α σ) (stored : String) (s : σ) :
    (∀ torrentURL title,
      Conforms stored (∃ id, (add adding stored ⟨[], s⟩ torrentURL title).1 = .ok id)
        (add adding stored ⟨[], s⟩ torrentURL title).2.2.exchanges) ∧
    Conforms stored (∃ l, (items listing stored ⟨[], s⟩).1 = .ok l)
      (items listing stored ⟨[], s⟩).2.2.exchanges ∧
    (∀ downloadID deleteData,
      Conforms stored ((remove scan serve stored ⟨[], s⟩ downloadID deleteData).1 = .ok ())
          (remove scan serve stored ⟨[], s⟩ downloadID deleteData).2.2.exchanges ↔
        ∀ id, scan downloadID = .ok id →
          Truthful serve (removeRequest id deleteData) stored s) ∧
    (Conforms stored ((test serve stored ⟨[], s⟩).1 = .ok ())
        (test serve stored ⟨[], s⟩).2.2.exchanges ↔ Truthful serve testRequest stored s) :=
  ⟨fun torrentURL title => conforms_add adding stored torrentURL title s,
    conforms_items listing stored s,
    fun downloadID deleteData => conforms_remove_iff scan serve stored downloadID deleteData s,
    conforms_callNil_iff serve testRequest stored s⟩

/-- The server has no torrent with this number, and says so. -/
def notFound : Server Unit Unit := fun _ _ =>
  (.ok ⟨200, "", some ⟨"torrent not found", .absent⟩⟩, ())

/-- A server that never takes a session id. -/
def conflicting : Server Unit Unit := fun _ _ => (.ok ⟨409, "abc", none⟩, ())

/-- A removal that failed is reported as done, and so is a test that was refused twice. -/
theorem failures_hidden :
    ¬ Conforms "abc" ((remove (fun _ => .ok 7) notFound "abc" ⟨[], ()⟩ "7" true).1 = .ok ())
        (remove (fun _ => .ok 7) notFound "abc" ⟨[], ()⟩ "7" true).2.2.exchanges ∧
      ¬ Conforms "" ((test conflicting "" ⟨[], ()⟩).1 = .ok ())
        (test conflicting "" ⟨[], ()⟩).2.2.exchanges := by
  constructor
  · intro h
    obtain ⟨e, r, he, hr, hsuccess⟩ := h.success rfl
    cases he
    cases hr
    obtain ⟨_, rpc, hrpc, hresult⟩ := hsuccess
    cases hrpc
    exact absurd hresult (by decide)
  · intro h
    obtain ⟨e, r, he, hr, hsuccess⟩ := h.success rfl
    cases he
    cases hr
    exact absurd hsuccess.1 (by decide)

end Sonarr.Providers.Transmission.Session
