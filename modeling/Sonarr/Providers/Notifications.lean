import Sonarr.Lib.JsonValue
import Sonarr.Lib.Selection
import Sonarr.RssSync.Handler

/-! Notifications of grabs and health issues: which providers are called, and with which settings.
The stored settings of download clients and indexers are decoded onto the defaults before the
provider is used. -/
namespace Sonarr.Providers.Notification
open Lib RssSync
open Json (Value)

/-- `json.RawMessage`: no bytes, bytes that are no JSON, or a value. -/
inductive RawMessage
  | empty
  | malformed
  | value (v : Value)

/-- What `factory()` gives: a provider with its default settings, onto which JSON decodes. -/
structure Factory (S : Type) where
  defaults : S
  overlay : Value → S → Option S

abbrev Factories (S : Type) := String → Option (Factory S)

/-- The settings of a new provider once the stored ones, if there are any, are decoded onto it. -/
def Factory.unmarshal (f : Factory S) : RawMessage → Option S
  | .empty => some f.defaults
  | .malformed => none
  | .value v => f.overlay v f.defaults

inductive BuildError
  | factory (implementation : String)
  | unmarshal (implementation : String)
  deriving DecidableEq, Repr

/-- Step 4 of `Service.Grab`. -/
def buildClient (factories : Factories S) (implementation : String) (settings : RawMessage) :
    Except BuildError S :=
  match factories implementation with
  | none => .error (.factory implementation)
  | some f => match f.unmarshal settings with
    | none => .error (.unmarshal implementation)
    | some s => .ok s

/-- The indexer of one instance in `Handler.Handle` of the RSS sync; without one it is skipped. -/
def buildIndexer (factories : Factories S) (implementation : String) (settings : RawMessage) :
    Option S :=
  match factories implementation with
  | none => none
  | some f => match f.unmarshal settings with
    | none => none
    | some s => some s

theorem buildClient_toOption (factories : Factories S) (implementation : String)
    (settings : RawMessage) :
    (buildClient factories implementation settings).toOption =
      buildIndexer factories implementation settings := by
  unfold buildClient buildIndexer
  split
  · rfl
  · split <;> rfl

section Sites
variable {S σ : Type}

/-- The registry of download clients that these factories make. -/
def clientRegistry (parse : String → RawMessage) (factories : Factories S)
    (protocol : S → DownloadProtocol) (client : S → Client σ) : Registry σ :=
  fun name => (factories name).map (fun f =>
    ⟨protocol f.defaults, fun settings => (f.unmarshal (parse settings)).map client⟩)

theorem client_clientRegistry (parse : String → RawMessage) (factories : Factories S)
    (protocol : S → DownloadProtocol) (client : S → Client σ) (inst : Providers.Instance) :
    (clientRegistry parse factories protocol client).client inst =
      (buildClient factories inst.implementation (parse inst.settings)).toOption.map client := by
  rw [buildClient_toOption]
  unfold Registry.client clientRegistry buildIndexer
  cases factories inst.implementation with
  | none => rfl
  | some f => cases hu : f.unmarshal (parse inst.settings) <;> simp [hu]

def indexerRegistry (parse : String → RawMessage) (factories : Factories S)
    (fetchRss : S → Option (List Release)) : IndexerRegistry :=
  fun name => (factories name).map (fun f settings => (f.unmarshal (parse settings)).map fetchRss)

theorem fetchAll_indexerRegistry (parse : String → RawMessage) (factories : Factories S)
    (fetchRss : S → Option (List Release)) (instances : List IndexerInstance) :
    fetchAll (indexerRegistry parse factories fetchRss) instances =
      instances.flatMap (fun inst => if inst.enableRss then
        ((buildIndexer factories inst.implementation (parse inst.settings)).bind fetchRss).getD []
      else []) := by
  unfold fetchAll indexerRegistry buildIndexer
  congr 1
  funext inst
  split
  · cases factories inst.implementation with
    | none => rfl
    | some f => cases hu : f.unmarshal (parse inst.settings) <;> simp [hu]
  · rfl

end Sites

/-- `notification.Instance`, the fields that the dispatch reads. -/
structure Instance where
  id : Nat
  name : String
  implementation : String
  settings : RawMessage
  onGrab : Bool
  onHealthIssue : Bool

structure GrabMessage where
  seriesTitle : String
  episodeTitle : String
  quality : String
  indexer : String
  deriving DecidableEq, Repr

structure HealthMessage where
  type : String
  message : String
  deriving DecidableEq, Repr

inductive Message
  | grab (msg : GrabMessage)
  | health (msg : HealthMessage)
  deriving DecidableEq, Repr

/-- A registered implementation: its calls act on the outside world and may fail. -/
structure Notifier (S σ : Type) extends Factory S where
  onGrab : S → GrabMessage → σ → Option String × σ
  onHealthIssue : S → HealthMessage → σ → Option String × σ

abbrev Notifiers (S σ : Type) := String → Option (Notifier S σ)

/-- A call that an instance receives, on a provider with these settings. -/
structure Call (S : Type) where
  inst : Instance
  settings : S
  message : Message

inductive Log
  | grabInstances (err : String)
  | healthInstances (err : String)
  | unknownImplementation (implementation name : String)
  | onGrab (name implementation err : String)
  | onHealthIssue (name err : String)
  deriving DecidableEq, Repr

/-- The outside world, with the calls made and what was logged. -/
structure World (S σ : Type) where
  outside : σ
  calls : List (Call S)
  logs : List Log

variable {S σ : Type}

/-- In what the two dispatches differ. -/
structure Kind (S σ : Type) where
  on : Instance → Bool
  message : Message
  call : Notifier S σ → S → σ → Option String × σ
  listFailed : String → Log
  unknown : Instance → List Log
  failed : Instance → String → Log

/-- The body of the loop over the instances. -/
def dispatchTo (kind : Kind S σ) (registry : Notifiers S σ) (w : World S σ) (inst : Instance) :
    World S σ :=
  if kind.on inst then
    match registry inst.implementation with
    | none => { w with logs := w.logs ++ kind.unknown inst }
    | some notifier =>
      let provider := notifier.defaults
      let (err, outside) := kind.call notifier provider w.outside
      { outside
        calls := w.calls ++ [⟨inst, provider, kind.message⟩]
        logs := w.logs ++ (err.map (kind.failed inst)).toList }
  else w

def dispatch (kind : Kind S σ) (registry : Notifiers S σ)
    (instances : Except String (List Instance)) (w : World S σ) : World S σ :=
  match instances with
  | .error e => { w with logs := w.logs ++ [kind.listFailed e] }
  | .ok instances => instances.foldl (dispatchTo kind registry) w

def onGrabKind (msg : GrabMessage) : Kind S σ where
  on := Instance.onGrab
  message := .grab msg
  call := fun notifier s => notifier.onGrab s msg
  listFailed := .grabInstances
  unknown := fun inst => [.unknownImplementation inst.implementation inst.name]
  failed := fun inst => .onGrab inst.name inst.implementation

def onHealthKind (msg : HealthMessage) : Kind S σ where
  on := Instance.onHealthIssue
  message := .health msg
  call := fun notifier s => notifier.onHealthIssue s msg
  listFailed := .healthInstances
  unknown := fun _ => []
  failed := fun inst => .onHealthIssue inst.name

def dispatchGrabNotifications (registry : Notifiers S σ)
    (instances : Except String (List Instance)) (msg : GrabMessage) : World S σ → World S σ :=
  dispatch (onGrabKind msg) registry instances

def dispatchHealthNotifications (registry : Notifiers S σ)
    (instances : Except String (List Instance)) (msg : HealthMessage) : World S σ → World S σ :=
  dispatch (onHealthKind msg) registry instances

/-- What is subscribed to `ReleasesGrabbed`. -/
def onReleasesGrabbed (registry : Notifiers S σ) (list : σ → Except String (List Instance))
    (e : ReleasesGrabbed) (w : World S σ) : World S σ :=
  dispatchGrabNotifications registry (list w.outside) ⟨e.title, "", "", ""⟩ w

/-! ### Health checks -/

/-- `health.Level`. -/
inductive Level
  | ok
  | notice
  | warning
  | error
  deriving DecidableEq, Repr

def Level.text : Level → String
  | .ok => "ok"
  | .notice => "notice"
  | .warning => "warning"
  | .error => "error"

structure Result where
  source : String
  type : Level
  message : String
  deriving DecidableEq, Repr

def Result.key (r : Result) : String := r.source ++ ":" ++ r.message

/-- Whether a result is an issue that was not there in the last run, if there was one. -/
def Result.fresh (last : Option (List String)) (r : Result) : Bool :=
  (r.type == .warning || r.type == .error) && !last.any (fun issues => issues.contains r.key)

/-- The body of the loop over the results, with the issues found so far. -/
def handleResult (registry : Notifiers S σ) (list : σ → Except String (List Instance))
    (last : Option (List String)) (st : List String × World S σ) (r : Result) :
    List String × World S σ :=
  if r.type == .warning || r.type == .error then
    if last.any (fun issues => issues.contains r.key) then (st.1 ++ [r.key], st.2)
    else (st.1 ++ [r.key],
      dispatchHealthNotifications registry (list st.2.outside) ⟨r.type.text, r.message⟩ st.2)
  else st

/-- `healthCheckHandler.Handle` on what the checker found: the issues to remember, and the world. -/
def handle (registry : Notifiers S σ) (list : σ → Except String (List Instance))
    (last : Option (List String)) (results : List Result) (w : World S σ) :
    List String × World S σ :=
  results.foldl (handleResult registry list last) ([], w)

/-! ### Which calls are made -/

/-- The call that an instance receives, if it receives one. -/
def made (kind : Kind S σ) (registry : Notifiers S σ) (inst : Instance) : Option (Call S) :=
  if kind.on inst then
    (registry inst.implementation).map (fun notifier => ⟨inst, notifier.defaults, kind.message⟩)
  else none

/-- The call on a provider that is built from the stored settings as those of the RSS sync are. -/
def configured (kind : Kind S σ) (registry : Notifiers S σ) (inst : Instance) : Option (Call S) :=
  if kind.on inst then
    (buildIndexer (fun name => (registry name).map Notifier.toFactory) inst.implementation
      inst.settings).map (fun s => ⟨inst, s, kind.message⟩)
  else none

theorem dispatchTo_calls (kind : Kind S σ) (registry : Notifiers S σ) (w : World S σ)
    (inst : Instance) :
    (dispatchTo kind registry w inst).calls = w.calls ++ (made kind registry inst).toList := by
  unfold dispatchTo made
  split
  · cases registry inst.implementation <;> simp
  · simp

/-- Whatever the calls answer, the loop makes them all. -/
theorem dispatch_calls (kind : Kind S σ) (registry : Notifiers S σ) (instances : List Instance)
    (w : World S σ) :
    (dispatch kind registry (.ok instances) w).calls =
      w.calls ++ instances.filterMap (made kind registry) := by
  unfold dispatch
  induction instances generalizing w with
  | nil => simp
  | cons inst rest ih =>
    simp only [List.foldl_cons] at ih ⊢
    rw [ih, dispatchTo_calls, List.append_assoc]
    cases hm : made kind registry inst with
    | none => rw [List.filterMap_cons_none hm]; rfl
    | some call => rw [List.filterMap_cons_some hm]; rfl

theorem handleResult_calls (registry : Notifiers S σ) (last : Option (List String))
    (st : List String × World S σ) (r : Result) {list : σ → Except String (List Instance)}
    (hlist : ∀ o, list o = .ok instances) :
    (handleResult registry list last st r).2.calls =
      st.2.calls ++ if r.fresh last then
        instances.filterMap (made (onHealthKind ⟨r.type.text, r.message⟩) registry) else [] := by
  unfold handleResult Result.fresh
  cases hissue : r.type == .warning || r.type == .error with
  | false => simp
  | true =>
    cases hlast : last.any (fun issues => issues.contains r.key) with
    | true => simp
    | false =>
      simp only [Bool.not_false, Bool.and_true, Bool.false_eq_true, if_false, if_true,
        dispatchHealthNotifications, hlist, dispatch_calls]

theorem foldl_handleResult_calls (registry : Notifiers S σ) (last : Option (List String))
    (results : List Result) (st : List String × World S σ)
    {list : σ → Except String (List Instance)} (hlist : ∀ o, list o = .ok instances) :
    (results.foldl (handleResult registry list last) st).2.calls =
      st.2.calls ++ (results.filter (Result.fresh last)).flatMap (fun r =>
        instances.filterMap (made (onHealthKind ⟨r.type.text, r.message⟩) registry)) := by
  induction results generalizing st with
  | nil => simp
  | cons r rest ih =>
    rw [List.foldl_cons, ih, handleResult_calls registry last st r hlist, List.append_assoc,
      List.filter_cons]
    split <;> simp

/-! ### With which settings -/

theorem made_of_configured (kind : Kind S σ) (registry : Notifiers S σ) (inst : Instance)
    (h : (configured kind registry inst).isSome) : (made kind registry inst).isSome := by
  unfold configured buildIndexer at h
  unfold made
  split at h
  · rename_i hon
    rw [if_pos hon]
    cases hn : registry inst.implementation with
    | none => simp [hn] at h
    | some notifier => rfl
  · cases h

/-- An instance is called as it is configured if its settings add nothing to the defaults. -/
theorem made_eq_configured_iff (kind : Kind S σ) (registry : Notifiers S σ) (inst : Instance) :
    made kind registry inst = configured kind registry inst ↔
      (kind.on inst → ∀ n, registry inst.implementation = some n →
        n.unmarshal inst.settings = some n.defaults) := by
  unfold made configured buildIndexer
  cases hon : kind.on inst with
  | false => simp
  | true =>
    cases hn : registry inst.implementation with
    | none => simp [hn]
    | some notifier =>
      cases hu : notifier.unmarshal inst.settings with
      | none => simp [hn, hu]
      | some s => simp [hn, hu, eq_comm]

/-- What a dispatch to these instances does to the calls. -/
structure Dispatched (kind : Kind S σ) (registry : Notifiers S σ) (instances : List Instance)
    (w w' : World S σ) : Prop where
  /-- Each instance with the flag and an implementation is called once, and no other. -/
  once : ∃ calls, w'.calls = w.calls ++ calls ∧ (∀ c ∈ calls, c.message = kind.message) ∧
    calls.map Call.inst = instances.filter (fun inst =>
      kind.on inst && (registry inst.implementation).isSome)
  configured : w'.calls = w.calls ++ instances.filterMap (configured kind registry) ↔
    ∀ inst ∈ instances, kind.on inst → ∀ n, registry inst.implementation = some n →
      n.unmarshal inst.settings = some n.defaults

theorem made_inst (kind : Kind S σ) (registry : Notifiers S σ) (inst : Instance) :
    (made kind registry inst).map Call.inst =
      if kind.on inst && (registry inst.implementation).isSome then some inst else none := by
  unfold made
  cases kind.on inst with
  | false => rfl
  | true => cases registry inst.implementation <;> rfl

theorem made_message (h : made kind registry inst = some c) : c.message = kind.message := by
  unfold made at h
  split at h
  · obtain ⟨n, -, rfl⟩ := Option.map_eq_some_iff.mp h
    rfl
  · cases h

theorem dispatch_dispatched (kind : Kind S σ) (registry : Notifiers S σ)
    (instances : List Instance) (w : World S σ) :
    Dispatched kind registry instances w (dispatch kind registry (.ok instances) w) where
  once := by
    refine ⟨_, dispatch_calls kind registry instances w, ?_, ?_⟩
    · intro c hc
      obtain ⟨inst, -, hmade⟩ := List.mem_filterMap.mp hc
      exact made_message hmade
    · rw [List.map_filterMap, ← List.filterMap_eq_filter]
      exact List.filterMap_congr (fun inst _ => made_inst kind registry inst)
  configured := by
    rw [dispatch_calls, List.append_cancel_left_eq,
      filterMap_eq_iff (fun inst _ => made_of_configured kind registry inst)]
    exact forall₂_congr (fun inst _ => made_eq_configured_iff kind registry inst)

/-- Errors keep no one from being called, but everyone is called with the default settings: the
stored ones count only where they are the defaults. -/
theorem notifications_configured_iff (registry : Notifiers S σ) (instances : List Instance)
    (w : World S σ) :
    (∀ msg, Dispatched (onGrabKind msg) registry instances w
      (dispatchGrabNotifications registry (.ok instances) msg w)) ∧
    (∀ msg, Dispatched (onHealthKind msg) registry instances w
      (dispatchHealthNotifications registry (.ok instances) msg w)) ∧
    (∀ list e, (∀ o, list o = .ok instances) →
      Dispatched (onGrabKind ⟨e.title, "", "", ""⟩) registry instances w
        (onReleasesGrabbed registry list e w)) ∧
    ∀ list last results, (∀ o, list o = .ok instances) →
      (handle registry list last results w).2.calls =
        w.calls ++ (results.filter (Result.fresh last)).flatMap (fun r =>
          instances.filterMap (made (onHealthKind ⟨r.type.text, r.message⟩) registry)) := by
  refine ⟨fun msg => dispatch_dispatched _ registry instances w,
    fun msg => dispatch_dispatched _ registry instances w, ?_, ?_⟩
  · intro list e hlist
    rw [onReleasesGrabbed, hlist]
    exact dispatch_dispatched _ registry instances w
  · intro list last results hlist
    exact foldl_handleResult_calls registry last results ([], w) hlist

/-! ### Telegram -/

namespace Telegram

structure Settings where
  botToken : String
  chatID : String
  deriving DecidableEq, Repr

def Settings.overlay (v : Value) (s : Settings) : Option Settings :=
  v.toStruct (fun field =>
    match (field "botToken").foldlM Value.textOver s.botToken,
      (field "chatId").foldlM Value.textOver s.chatID with
    | some botToken, some chatID => some ⟨botToken, chatID⟩
    | _, _ => none)

structure Post where
  url : String
  chatID : String
  text : String
  deriving DecidableEq, Repr

/-- The world is what was posted, and `respond` the error that a post ends with, if any. -/
def sendMessage (respond : Post → Option String) (s : Settings) (text : String)
    (posts : List Post) : Option String × List Post :=
  let post : Post :=
    ⟨"https://api.telegram.org/bot" ++ s.botToken ++ "/sendMessage", s.chatID, text⟩
  (respond post, posts ++ [post])

def notifier (respond : Post → Option String) : Notifier Settings (List Post) where
  defaults := ⟨"", ""⟩
  overlay := Settings.overlay
  onGrab := fun s msg => sendMessage respond s
    ("Release Grabbed: " ++ msg.seriesTitle ++ " — " ++ msg.episodeTitle ++
      " [" ++ msg.quality ++ "]")
  onHealthIssue := fun s msg => sendMessage respond s
    ("Health Issue [" ++ msg.type ++ "]: " ++ msg.message)

def registry (respond : Post → Option String) : Notifiers Settings (List Post) :=
  fun name => if name = "Telegram" then some (notifier respond) else none

def phone : Instance where
  id := 1
  name := "Phone"
  implementation := "Telegram"
  settings := .value (.obj [("botToken", .str "123:abc"), ("chatId", .str "42")])
  onGrab := true
  onHealthIssue := true

/-- The message is posted without the token of the bot, and to no chat. -/
theorem posted_without_token :
    (notifier (fun _ => none)).unmarshal phone.settings = some ⟨"123:abc", "42"⟩ ∧
      (dispatchGrabNotifications (registry (fun _ => none)) (.ok [phone]) ⟨"Andor", "", "", ""⟩
        ⟨[], [], []⟩).outside =
        [⟨"https://api.telegram.org/bot/sendMessage", "", "Release Grabbed: Andor —  []"⟩] ∧
      (dispatchGrabNotifications (registry (fun _ => none)) (.ok [phone]) ⟨"Andor", "", "", ""⟩
        ⟨[], [], []⟩).calls ≠
        [phone].filterMap
          (configured (onGrabKind ⟨"Andor", "", "", ""⟩) (registry (fun _ => none))) := by
  have hsettings : (notifier (fun _ => none)).unmarshal phone.settings = some ⟨"123:abc", "42"⟩ := by
    rfl
  refine ⟨hsettings, by rfl, ?_⟩
  intro heq
  have hcond := (dispatch_dispatched (onGrabKind ⟨"Andor", "", "", ""⟩) (registry (fun _ => none))
    [phone] ⟨[], [], []⟩).configured.mp heq phone List.mem_cons_self rfl _ rfl
  rw [hsettings] at hcond
  exact absurd hcond (by decide)

end Telegram

end Sonarr.Providers.Notification
